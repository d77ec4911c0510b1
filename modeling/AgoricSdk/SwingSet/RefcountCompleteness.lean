import AgoricSdk.SwingSet.Initialize
import AgoricSdk.SwingSet.RefcountPass

/-!
When the pass over the krefs that may be free is complete: it visits each kref
once, so it misses a kref of the set that loses its last reference later in the
same pass.
-/

namespace AgoricSdk.SwingSet

open StateProgram

section Definitions

/-- Reachable from the set through the data of settled promises. -/
inductive ReachedFrom (s : KernelState) : KSlot → Prop where
  | listed {kref : KSlot} : kref ∈ s.maybeFreeKrefs → ReachedFrom s kref
  | slot {kpid kref : KSlot} : ReachedFrom s kpid → kref ∈ s.store.slotsOf kpid →
      ReachedFrom s kref

/-- The references that promises hold by their data. -/
def holdings (s : KernelState) : Holdings KSlot where
  count := s.store.countOf
  refs kpid kref := (s.store.slotsOf kpid).count kref

def allKrefs (s : KernelState) : Finset KSlot :=
  (s.maybeFreeKrefs ++ s.store.promises.keys.flatMap s.store.slotsOf).toFinset

open Classical in
noncomputable def reachedKrefs (s : KernelState) : Finset KSlot :=
  (allKrefs s).filter fun kref => ReachedFrom s kref

def LiveOwner (s : KernelState) (kref : KSlot) (vatID : VatID) : Prop :=
  s.store.owner.lookup kref = some vatID ∧ vatID ∉ s.terminatedVats

/-- The vat's c-list has the object as reachable. -/
def FlaggedReachable (s : KernelState) (vatID : VatID) (kref : KSlot) : Prop :=
  ∃ vref, s.store.clistK.lookup (vatID, kref) = some (true, vref)

/-- Nothing of what the set led to is left to be done. -/
structure RefcountsProcessed (s t : KernelState) : Prop where
  promises : ∀ kpid, ReachedFrom s kpid → kpid.type = .promise → t.store.countOf kpid ≠ some 0
  orphans : ∀ kref, ReachedFrom s kref → kref.type = .object → t.store.countOf kref = some 0 →
    ∃ vatID, LiveOwner t kref vatID
  drops : ∀ kref vatID, ReachedFrom s kref → kref.type = .object →
    t.store.countOf kref = some 0 → LiveOwner t kref vatID → FlaggedReachable t vatID kref →
      ⟨vatID, .dropExport, kref⟩ ∈ t.store.gcActions
  retires : ∀ kref vatID, ReachedFrom s kref → kref.type = .object →
    t.store.refCount.lookup kref = some (0, 0) → LiveOwner t kref vatID →
      ⟨vatID, .retireExport, kref⟩ ∈ t.store.gcActions

/-- An object whose live owner has been told already, or need not be, that it is unreachable. -/
def NeedsNothing (s : KernelState) (kref : KSlot) : Prop :=
  kref.type = .object ∧ ∃ vatID, LiveOwner s kref vatID ∧
    (FlaggedReachable s vatID kref → ⟨vatID, .dropExport, kref⟩ ∈ s.store.gcActions) ∧
    (s.store.excessOf kref = some 0 → ⟨vatID, .retireExport, kref⟩ ∈ s.store.gcActions)

/-- Every kref that the set frees loses its references before its turn: those that the data of
freed promises hold are held by promises before it in the set. -/
def FreedInTime (s : KernelState) : Prop :=
  (holdings s).InTime (reachedKrefs s) s.maybeFreeKrefs (NeedsNothing s)

end Definitions

section Reached

variable {s : KernelState} {kref : KSlot}

theorem lookup_of_slot {kpid : KSlot} (h : kref ∈ s.store.slotsOf kpid) :
    ∃ p, s.store.promises.lookup kpid = some p := by
  unfold KVStore.slotsOf at h
  cases htype : kpid.type with
  | promise =>
    rw [htype] at h
    cases hp : s.store.promises.lookup kpid with
    | none => simp [hp] at h
    | some p => exact ⟨p, rfl⟩
  | _ => simp [htype] at h

theorem mem_reachedKrefs : kref ∈ reachedKrefs s ↔ ReachedFrom s kref := by
  classical
  unfold reachedKrefs
  rw [Finset.mem_filter]
  constructor
  · exact fun h => h.2
  · intro h
    refine ⟨?_, h⟩
    unfold allKrefs
    rw [List.mem_toFinset, List.mem_append]
    cases h with
    | listed hin => exact .inl hin
    | @slot kpid _ _ hslot =>
      obtain ⟨p, hp⟩ := lookup_of_slot hslot
      refine .inr (List.mem_flatMap.mpr ⟨kpid, ?_, hslot⟩)
      exact Table.mem_keys_iff.mpr (Table.has_of_lookup hp)

theorem reached_of_drops {freed : Finset KSlot} (hfreed : ∀ a ∈ freed, ReachedFrom s a)
    (h : 0 < (holdings s).drops freed kref) : ReachedFrom s kref := by
  obtain ⟨a, ha, hne⟩ := Finset.exists_ne_zero_of_sum_ne_zero (Nat.pos_iff_ne_zero.mp h)
  have hslot : kref ∈ s.store.slotsOf a := List.count_pos_iff.mp (Nat.pos_of_ne_zero hne)
  exact .slot (hfreed a ha) hslot

end Reached

section Visiting

variable {s t u : KernelState} {kref : KSlot} {freed : Finset KSlot} {i : Nat}
  {actions : List GcAction}

/-- The pass from `s`, with the krefs before position `i` visited and some of them freed. -/
structure Visiting (s u : KernelState) (freed : Finset KSlot) (i : Nat)
    (actions : List GcAction) : Prop where
  slotsOf : ∀ kref, u.store.slotsOf kref = if kref ∈ freed then [] else s.store.slotsOf kref
  counts : ∀ kref, kref ∉ freed → u.store.countOf kref =
    (s.store.countOf kref).map (· - (holdings s).drops freed kref)
  enough : ∀ kref n, kref ∉ freed → s.store.countOf kref = some n →
    (holdings s).drops freed kref ≤ n
  deleted : ∀ kref ∈ freed, (∀ vatID, ¬ (kref.type = .object ∧ LiveOwner s kref vatID)) →
    u.store.countOf kref = none
  excess : ∀ kref, kref.type = .object → u.store.countOf kref ≠ none →
    u.store.excessOf kref = s.store.excessOf kref
  terminatedVats : u.terminatedVats = s.terminatedVats
  liveOwner : ∀ kref vatID, LiveOwner s kref vatID → u.store.owner.lookup kref = some vatID
  owner : ∀ kref, kref ∉ freed → s.store.countOf kref ≠ none →
    u.store.owner.lookup kref = s.store.owner.lookup kref
  clistK : ∀ vatID, vatID ∉ s.terminatedVats → ∀ kref,
    u.store.clistK.lookup (vatID, kref) = s.store.clistK.lookup (vatID, kref)
  gcKept : ∀ action ∈ s.store.gcActions, action ∈ u.store.gcActions
  gcNew : ∀ action ∈ u.store.gcActions,
    action ∈ s.store.gcActions ∨ action.type = .retireImport
  own : ∀ action ∈ actions, action.kref ∈ freed ∨ s.store.countOf action.kref = none
  drops : ∀ kref ∈ freed, kref.type = .object → ∀ vatID, LiveOwner s kref vatID →
    FlaggedReachable s vatID kref → ⟨vatID, .dropExport, kref⟩ ∈ actions
  retires : ∀ kref ∈ freed, kref.type = .object → ∀ vatID, LiveOwner s kref vatID →
    s.store.excessOf kref = some 0 → ⟨vatID, .retireExport, kref⟩ ∈ actions
  nodup : u.maybeFreeKrefs.Nodup
  set : ∃ added, u.maybeFreeKrefs = s.maybeFreeKrefs ++ added ∧ ∀ kref, kref ∈ added ↔
    kref ∉ s.maybeFreeKrefs ∧ 0 < (holdings s).drops freed kref ∧
      s.store.countOf kref ≠ some 0 ∧ (holdings s).Lost freed kref
  visited : i ≤ u.maybeFreeKrefs.length
  before : ∀ kref ∈ freed, kref ∈ u.maybeFreeKrefs.take i
  inTurn : ∀ j < i, ∀ kref, s.maybeFreeKrefs[j]? = some kref → s.store.countOf kref ≠ none →
    (kref ∈ freed ↔
      (holdings s).Lost (freed.filter fun a => a ∈ s.maybeFreeKrefs.take j) kref)
  late : ∀ j < i, ∀ kref, u.maybeFreeKrefs[j]? = some kref → kref ∉ s.maybeFreeKrefs →
    kref ∈ freed
  free : ∀ kref ∈ freed, (holdings s).Free (reachedKrefs s) kref
  slotCount : u.maybeFreeKrefs.length + u.store.slotCount ≤
    s.maybeFreeKrefs.length + s.store.slotCount

/-- What every visit of a kref leaves as it was. -/
structure Advances (u t : KernelState) (kref : KSlot) (actions actions' : List GcAction) :
    Prop where
  terminatedVats : t.terminatedVats = u.terminatedVats
  owner : ∀ k, k ≠ kref → t.store.owner.lookup k = u.store.owner.lookup k
  liveOwner : ∀ vatID, LiveOwner u kref vatID → t.store.owner.lookup kref = some vatID
  clistK : ∀ vatID, vatID ∉ u.terminatedVats → ∀ k,
    t.store.clistK.lookup (vatID, k) = u.store.clistK.lookup (vatID, k)
  gcKept : ∀ action ∈ u.store.gcActions, action ∈ t.store.gcActions
  gcNew : ∀ action ∈ t.store.gcActions,
    action ∈ u.store.gcActions ∨ action.type = .retireImport
  kept : ∀ action ∈ actions, action ∈ actions'
  own : ∀ action ∈ actions', action ∈ actions ∨ action.kref = kref
  absent : ∀ k, u.store.countOf k = none → t.store.countOf k = none
  excess : ∀ k, k.type = .object → t.store.countOf k ≠ none →
    t.store.excessOf k = u.store.excessOf k

theorem Advances.refl (u : KernelState) (kref : KSlot) (actions : List GcAction) :
    Advances u u kref actions actions where
  terminatedVats := rfl
  owner := fun _ _ => rfl
  liveOwner := fun _ h => h.1
  clistK := fun _ _ _ => rfl
  gcKept := fun _ h => h
  gcNew := fun _ => .inl
  kept := fun _ h => h
  own := fun _ => .inl
  absent := fun _ h => h
  excess := fun _ _ _ => rfl

theorem LiveOwner.visited (h : Visiting s u freed i actions) {vatID : VatID}
    (hlive : LiveOwner s kref vatID) : LiveOwner u kref vatID :=
  ⟨h.liveOwner kref vatID hlive, h.terminatedVats ▸ hlive.2⟩

theorem FlaggedReachable.visited (h : Visiting s u freed i actions) {vatID : VatID}
    (hvat : vatID ∉ s.terminatedVats) :
    FlaggedReachable u vatID kref ↔ FlaggedReachable s vatID kref := by
  unfold FlaggedReachable
  rw [h.clistK vatID hvat]

theorem Visiting.getElem?_set (h : Visiting s u freed i actions) {j : Nat}
    (hj : s.maybeFreeKrefs[j]? = some kref) : u.maybeFreeKrefs[j]? = some kref := by
  obtain ⟨added, hset, -⟩ := h.set
  rw [hset, List.getElem?_append_left (List.getElem?_eq_some_iff.mp hj).1]
  exact hj

theorem Visiting.zero_iff (h : Visiting s u freed i actions) (hout : kref ∉ freed) :
    u.store.countOf kref = some 0 ↔ (holdings s).Lost freed kref := by
  rw [h.counts kref hout]
  constructor
  · intro hzero
    obtain ⟨n, hn, hsub⟩ := Option.map_eq_some_iff.mp hzero
    exact ⟨n, hn, by omega⟩
  · rintro ⟨n, hn, hle⟩
    have hn : s.store.countOf kref = some n := hn
    rw [hn, Option.map_some]
    exact congrArg some (by omega)

theorem Visiting.not_freed (h : Visiting s u freed i actions)
    (hi : u.maybeFreeKrefs[i]? = some kref) : kref ∉ freed := by
  intro hin
  obtain ⟨j, hj⟩ := List.mem_iff_getElem?.mp (h.before kref hin)
  rw [List.getElem?_take] at hj
  split at hj
  · next hlt =>
    obtain ⟨hji, hjeq⟩ := List.getElem?_eq_some_iff.mp hj
    obtain ⟨hii, hieq⟩ := List.getElem?_eq_some_iff.mp hi
    have := (List.Nodup.getElem_inj_iff h.nodup).mp (hjeq.trans hieq.symm)
    omega
  · cases hj

theorem Visiting.filter_take (h : Visiting s u freed i actions) (hi : i ≤ s.maybeFreeKrefs.length) :
    (freed.filter fun a => a ∈ s.maybeFreeKrefs.take i) = freed := by
  apply Finset.filter_true_of_mem
  intro a ha
  have hbefore := h.before a ha
  obtain ⟨added, hset, -⟩ := h.set
  rwa [hset, List.take_append_of_le_length hi] at hbefore

theorem Visiting.skip (h : Visiting s u freed i actions) {actions' : List GcAction}
    (hi : u.maybeFreeKrefs[i]? = some kref) (hadvances : Advances u t kref actions actions')
    (hheld : s.store.countOf kref ≠ none → u.store.countOf kref ≠ some 0 ∧ actions' = actions ∧
      t.store.owner.lookup kref = u.store.owner.lookup kref)
    (hcounts : t.store.countOf = u.store.countOf) (hslots : t.store.slotsOf = u.store.slotsOf)
    (hset : t.maybeFreeKrefs = u.maybeFreeKrefs) (hslotCount : t.store.slotCount = u.store.slotCount) :
    Visiting s t freed (i + 1) actions' := by
  have hout := h.not_freed hi
  have hlength : i < u.maybeFreeKrefs.length := (List.getElem?_eq_some_iff.mp hi).1
  have hnotLost (hcounted : s.store.countOf kref ≠ none) : ¬ (holdings s).Lost freed kref :=
    fun hlost => (hheld hcounted).1 ((h.zero_iff hout).mpr hlost)
  constructor
  case slotsOf => rw [hslots]; exact h.slotsOf
  case counts => rw [hcounts]; exact h.counts
  case enough => exact h.enough
  case deleted => rw [hcounts]; exact h.deleted
  case excess =>
    intro k htype hk
    rw [hadvances.excess k htype hk]
    rw [hcounts] at hk
    exact h.excess k htype hk
  case terminatedVats => exact hadvances.terminatedVats.trans h.terminatedVats
  case liveOwner =>
    intro k vatID hlive
    by_cases hk : k = kref
    · subst hk
      exact hadvances.liveOwner vatID (hlive.visited h)
    · rw [hadvances.owner k hk]
      exact h.liveOwner k vatID hlive
  case owner =>
    intro k hk hcounted
    by_cases hsame : k = kref
    · subst hsame
      rw [(hheld hcounted).2.2]
      exact h.owner k hk hcounted
    · rw [hadvances.owner k hsame]
      exact h.owner k hk hcounted
  case clistK =>
    intro vatID hvat k
    rw [hadvances.clistK vatID (h.terminatedVats ▸ hvat)]
    exact h.clistK vatID hvat k
  case gcKept => exact fun action ha => hadvances.gcKept action (h.gcKept action ha)
  case gcNew =>
    intro action ha
    rcases hadvances.gcNew action ha with ha | ha
    · exact h.gcNew action ha
    · exact .inr ha
  case own =>
    intro action ha
    rcases hadvances.own action ha with hold | hsame
    · exact h.own action hold
    · by_cases hcounted : s.store.countOf kref = none
      · exact .inr (hsame ▸ hcounted)
      · rw [(hheld hcounted).2.1] at ha
        exact h.own action ha
  case drops =>
    exact fun k hk htype vatID hlive hflag =>
      hadvances.kept _ (h.drops k hk htype vatID hlive hflag)
  case retires =>
    exact fun k hk htype vatID hlive hnone =>
      hadvances.kept _ (h.retires k hk htype vatID hlive hnone)
  case nodup => rw [hset]; exact h.nodup
  case set => rw [hset]; exact h.set
  case visited => rw [hset]; exact hlength
  case before =>
    intro k hk
    rw [hset]
    exact (List.take_prefix_take_left (Nat.le_succ i)).subset (h.before k hk)
  case inTurn =>
    intro j hj k hjk hcounted
    by_cases hlt : j < i
    · exact h.inTurn j hlt k hjk hcounted
    · have hji : j = i := by omega
      subst hji
      cases hi.symm.trans (h.getElem?_set hjk)
      constructor
      · exact fun hin => absurd hin hout
      · exact fun hlost => absurd (hlost.mono (Finset.filter_subset _ _)) (hnotLost hcounted)
  case late =>
    intro j hj k hjk hnew
    rw [hset] at hjk
    by_cases hlt : j < i
    · exact h.late j hlt k hjk hnew
    · have hji : j = i := by omega
      subst hji
      cases hi.symm.trans hjk
      obtain ⟨added, hadded, hmem⟩ := h.set
      have hin : kref ∈ added := by
        have := List.mem_of_getElem? hi
        rw [hadded] at this
        exact (List.mem_append.mp this).resolve_left hnew
      obtain ⟨-, -, -, hlost⟩ := (hmem kref).mp hin
      obtain ⟨n, hn, _⟩ := id hlost
      refine absurd hlost (hnotLost fun hnone => ?_)
      have hn : s.store.countOf kref = some n := hn
      rw [hnone] at hn
      cases hn
  case free => exact h.free
  case slotCount => rw [hset, hslotCount]; exact h.slotCount

theorem Visiting.reached (h : Visiting s u freed i actions) (hin : kref ∈ u.maybeFreeKrefs) :
    ReachedFrom s kref := by
  obtain ⟨added, hset, hadded⟩ := h.set
  rw [hset, List.mem_append] at hin
  rcases hin with hin | hin
  · exact .listed hin
  · obtain ⟨-, hdrops, -⟩ := (hadded kref).mp hin
    apply reached_of_drops _ hdrops
    exact fun a ha => mem_reachedKrefs.mp (Holdings.mem_domain_of_free (h.free a ha)).1

theorem drops_insert (hout : kref ∉ freed) (k : KSlot) :
    (holdings s).drops (insert kref freed) k =
      (s.store.slotsOf kref).count k + (holdings s).drops freed k :=
  Finset.sum_insert hout

theorem Visiting.freeing_set (h : Visiting s u freed i actions)
    (hi : u.maybeFreeKrefs[i]? = some kref)
    (hcounts : ∀ k, k ≠ kref → t.store.countOf k =
      (u.store.countOf k).map (· - (s.store.slotsOf kref).count k))
    (henough : ∀ k n, u.store.countOf k = some n → (s.store.slotsOf kref).count k ≤ n)
    {new : List KSlot} (hset : t.maybeFreeKrefs = u.maybeFreeKrefs ++ new)
    (hnew : ∀ k, k ∈ new ↔ k ∉ u.maybeFreeKrefs ∧ 0 < (s.store.slotsOf kref).count k ∧
      t.store.countOf k = some 0) :
    ∃ added, t.maybeFreeKrefs = s.maybeFreeKrefs ++ added ∧ ∀ k, k ∈ added ↔
      k ∉ s.maybeFreeKrefs ∧ 0 < (holdings s).drops (insert kref freed) k ∧
        s.store.countOf k ≠ some 0 ∧ (holdings s).Lost (insert kref freed) k := by
  have hout := h.not_freed hi
  obtain ⟨added, hset', hadded⟩ := h.set
  refine ⟨added ++ new, by rw [hset, hset', List.append_assoc], fun k => ?_⟩
  have hdrops := drops_insert (s := s) hout k
  by_cases hin : k ∈ u.maybeFreeKrefs
  · have hnot : k ∉ new := fun hk => ((hnew k).mp hk).1 hin
    rw [List.mem_append, or_iff_left hnot]
    constructor
    · intro hk
      obtain ⟨hout', hpos, hne, hlost⟩ := (hadded k).mp hk
      exact ⟨hout', by omega, hne, hlost.mono (Finset.subset_insert _ _)⟩
    · rintro ⟨hout', -⟩
      rw [hset', List.mem_append] at hin
      exact hin.resolve_left hout'
  · have hsplit : k ∉ s.maybeFreeKrefs ∧ k ∉ added := by
      rw [hset', List.mem_append, not_or] at hin
      exact hin
    have hne : k ≠ kref := fun hk => hin (hk ▸ List.mem_of_getElem? hi)
    have hfresh : k ∉ freed := fun hk => hin (List.mem_of_mem_take (h.before k hk))
    have hcount := hcounts k hne
    rw [h.counts k hfresh] at hcount
    rw [List.mem_append, or_iff_right hsplit.2, hnew]
    constructor
    · rintro ⟨-, hpos, hzero⟩
      cases hn : s.store.countOf k with
      | none =>
        rw [hcount, hn] at hzero
        cases hzero
      | some n =>
        have hle := h.enough k n hfresh hn
        have hmore := henough k (n - (holdings s).drops freed k) (by rw [h.counts k hfresh, hn]; rfl)
        rw [hcount, hn, Option.map_some, Option.map_some] at hzero
        have hzero := Option.some.inj hzero
        refine ⟨hsplit.1, by omega, fun hnil => ?_, n, hn, by omega⟩
        have := Option.some.inj hnil
        omega
    · rintro ⟨-, hpos, hnonzero, n, hn, hle⟩
      have hn : s.store.countOf k = some n := hn
      have hnpos : n ≠ 0 := fun hnil => hnonzero (hnil ▸ hn)
      refine ⟨hin, ?_, ?_⟩
      · by_contra hnil
        have hlost : (holdings s).Lost freed k := ⟨n, hn, by omega⟩
        exact hsplit.2 ((hadded k).mpr ⟨hsplit.1, by omega, hnonzero, hlost⟩)
      · rw [hcount, hn, Option.map_some, Option.map_some]
        exact congrArg some (by omega)

theorem Visiting.freeing (h : Visiting s u freed i actions) {actions' : List GcAction}
    (hi : u.maybeFreeKrefs[i]? = some kref) (hadvances : Advances u t kref actions actions')
    (hzero : u.store.countOf kref = some 0)
    (hslots : ∀ k, t.store.slotsOf k = if k = kref then [] else u.store.slotsOf k)
    (hcounts : ∀ k, k ≠ kref → t.store.countOf k =
      (u.store.countOf k).map (· - (s.store.slotsOf kref).count k))
    (henough : ∀ k n, u.store.countOf k = some n → (s.store.slotsOf kref).count k ≤ n)
    (hdeleted : (∀ vatID, ¬ (kref.type = .object ∧ LiveOwner s kref vatID)) →
      t.store.countOf kref = none)
    (hdrops : kref.type = .object → ∀ vatID, LiveOwner s kref vatID →
      FlaggedReachable s vatID kref → ⟨vatID, .dropExport, kref⟩ ∈ actions')
    (hretires : kref.type = .object → ∀ vatID, LiveOwner s kref vatID →
      s.store.excessOf kref = some 0 → ⟨vatID, .retireExport, kref⟩ ∈ actions')
    (new : List KSlot) (hset : t.maybeFreeKrefs = u.maybeFreeKrefs ++ new) (hnodup : new.Nodup)
    (hnew : ∀ k, k ∈ new ↔ k ∉ u.maybeFreeKrefs ∧ 0 < (s.store.slotsOf kref).count k ∧
      t.store.countOf k = some 0)
    (hslotCount : t.maybeFreeKrefs.length + t.store.slotCount ≤
      u.maybeFreeKrefs.length + u.store.slotCount) :
    Visiting s t (insert kref freed) (i + 1) actions' := by
  have hout := h.not_freed hi
  have hlength : i < u.maybeFreeKrefs.length := (List.getElem?_eq_some_iff.mp hi).1
  have hlost : (holdings s).Lost freed kref := (h.zero_iff hout).mp hzero
  have hin : kref ∈ u.maybeFreeKrefs := List.mem_of_getElem? hi
  -- the kref itself does not come before its own position
  have hfilter (j : Nat) (hj : j ≤ i) :
      ((insert kref freed).filter fun a => a ∈ s.maybeFreeKrefs.take j) =
        freed.filter fun a => a ∈ s.maybeFreeKrefs.take j := by
    rw [Finset.filter_insert, if_neg]
    intro hbefore
    obtain ⟨l, hl⟩ := List.mem_iff_getElem?.mp hbefore
    rw [List.getElem?_take] at hl
    split at hl
    · next hlj =>
      obtain ⟨_, hleq⟩ := List.getElem?_eq_some_iff.mp (h.getElem?_set hl)
      obtain ⟨_, hieq⟩ := List.getElem?_eq_some_iff.mp hi
      have := (List.Nodup.getElem_inj_iff h.nodup).mp (hleq.trans hieq.symm)
      omega
    · cases hl
  constructor
  case slotsOf =>
    intro k
    rw [hslots, h.slotsOf]
    by_cases hk : k = kref
    · simp [hk]
    · simp [hk]
  case counts =>
    intro k hk
    rw [Finset.mem_insert, not_or] at hk
    rw [hcounts k hk.1, h.counts k hk.2, Option.map_map, drops_insert hout]
    congr 1
    funext n
    simp only [Function.comp_apply]
    omega
  case enough =>
    intro k n hk hn
    rw [Finset.mem_insert, not_or] at hk
    have hle := h.enough k n hk.2 hn
    have hmore := henough k (n - (holdings s).drops freed k) (by rw [h.counts k hk.2, hn]; rfl)
    rw [drops_insert hout]
    omega
  case deleted =>
    intro k hk hnone
    rcases Finset.mem_insert.mp hk with rfl | hk
    · exact hdeleted hnone
    · exact hadvances.absent k (h.deleted k hk hnone)
  case excess =>
    intro k htype hk
    rw [hadvances.excess k htype hk]
    exact h.excess k htype fun hnone => hk (hadvances.absent k hnone)
  case terminatedVats => exact hadvances.terminatedVats.trans h.terminatedVats
  case liveOwner =>
    intro k vatID hlive
    by_cases hk : k = kref
    · subst hk
      exact hadvances.liveOwner vatID (hlive.visited h)
    · rw [hadvances.owner k hk]
      exact h.liveOwner k vatID hlive
  case owner =>
    intro k hk hcounted
    rw [Finset.mem_insert, not_or] at hk
    rw [hadvances.owner k hk.1]
    exact h.owner k hk.2 hcounted
  case clistK =>
    intro vatID hvat k
    rw [hadvances.clistK vatID (h.terminatedVats ▸ hvat)]
    exact h.clistK vatID hvat k
  case gcKept => exact fun action ha => hadvances.gcKept action (h.gcKept action ha)
  case gcNew =>
    intro action ha
    rcases hadvances.gcNew action ha with ha | ha
    · exact h.gcNew action ha
    · exact .inr ha
  case own =>
    intro action ha
    rcases hadvances.own action ha with hold | hsame
    · rcases h.own action hold with hfreed | hnone
      · exact .inl (Finset.mem_insert_of_mem hfreed)
      · exact .inr hnone
    · exact .inl (hsame ▸ Finset.mem_insert_self _ _)
  case drops =>
    intro k hk htype vatID hlive hflag
    rcases Finset.mem_insert.mp hk with rfl | hk
    · exact hdrops htype vatID hlive hflag
    · exact hadvances.kept _ (h.drops k hk htype vatID hlive hflag)
  case retires =>
    intro k hk htype vatID hlive hnone
    rcases Finset.mem_insert.mp hk with rfl | hk
    · exact hretires htype vatID hlive hnone
    · exact hadvances.kept _ (h.retires k hk htype vatID hlive hnone)
  case nodup =>
    rw [hset, List.nodup_append']
    refine ⟨h.nodup, hnodup, ?_⟩
    exact fun k hk hk' => ((hnew k).mp hk').1 hk
  case set => exact h.freeing_set hi hcounts henough hset hnew
  case visited =>
    rw [hset, List.length_append]
    omega
  case before =>
    intro k hk
    have hprefix : u.maybeFreeKrefs.take (i + 1) = t.maybeFreeKrefs.take (i + 1) := by
      rw [hset, List.take_append_of_le_length hlength]
    rw [← hprefix]
    rcases Finset.mem_insert.mp hk with rfl | hk
    · rw [List.take_add_one, hi]
      exact List.mem_append_right _ (List.mem_singleton.mpr rfl)
    · exact List.take_subset_take_left _ (Nat.le_succ i) (h.before k hk)
  case inTurn =>
    intro j hj k hjk hcounted
    rw [hfilter j (by omega)]
    have hjk' := h.getElem?_set hjk
    by_cases hlt : j < i
    · have hne : k ≠ kref := by
        rintro rfl
        obtain ⟨_, hleq⟩ := List.getElem?_eq_some_iff.mp hjk'
        obtain ⟨_, hieq⟩ := List.getElem?_eq_some_iff.mp hi
        have := (List.Nodup.getElem_inj_iff h.nodup).mp (hleq.trans hieq.symm)
        omega
      rw [Finset.mem_insert, or_iff_right hne]
      exact h.inTurn j hlt k hjk hcounted
    · have hji : j = i := by omega
      subst hji
      cases hi.symm.trans hjk'
      rw [h.filter_take (List.getElem?_eq_some_iff.mp hjk).1.le]
      exact iff_of_true (Finset.mem_insert_self _ _) hlost
  case late =>
    intro j hj k hjk hnotin
    rw [hset, List.getElem?_append_left (by omega)] at hjk
    by_cases hlt : j < i
    · exact Finset.mem_insert_of_mem (h.late j hlt k hjk hnotin)
    · have hji : j = i := by omega
      subst hji
      cases hi.symm.trans hjk
      exact Finset.mem_insert_self _ _
  case free =>
    intro k hk
    rcases Finset.mem_insert.mp hk with rfl | hk
    · exact Holdings.free_of_lost h.free (mem_reachedKrefs.mpr (h.reached hin)) hlost
    · exact h.free k hk
  case slotCount => exact hslotCount.trans h.slotCount

theorem countOf_congr {st st' : KVStore} {k : KSlot}
    (hpromises : st'.promises.lookup k = st.promises.lookup k)
    (hrefCount : st'.refCount.lookup k = st.refCount.lookup k) : st'.countOf k = st.countOf k := by
  unfold KVStore.countOf
  rw [hpromises, hrefCount]

theorem slotsOf_congr {st st' : KVStore} {k : KSlot}
    (hpromises : st'.promises.lookup k = st.promises.lookup k) : st'.slotsOf k = st.slotsOf k := by
  unfold KVStore.slotsOf
  rw [hpromises]

theorem slotsOf_object {st : KVStore} (htype : kref.type = .object) : st.slotsOf kref = [] := by
  unfold KVStore.slotsOf
  rw [htype]

theorem Visiting.counted_iff (h : Visiting s u freed i actions) (hout : kref ∉ freed) :
    s.store.countOf kref = none ↔ u.store.countOf kref = none := by
  rw [h.counts kref hout, Option.map_eq_none_iff]

theorem Visiting.live_iff (h : Visiting s u freed i actions) (hout : kref ∉ freed)
    (hcounted : u.store.countOf kref ≠ none) {vatID : VatID} :
    LiveOwner u kref vatID ↔ LiveOwner s kref vatID := by
  unfold LiveOwner
  rw [h.owner kref hout (fun hnone => hcounted ((h.counted_iff hout).mp hnone)), h.terminatedVats]

theorem advances_of_same (hsame : SameCounts u t) {more : List GcAction}
    (hown : ∀ action ∈ more, action.kref = kref) :
    Advances u t kref actions (more.foldl addIfMissing actions) where
  terminatedVats := congrArg CountView.terminatedVats hsame
  owner := fun k _ => congrArg (fun view => view.owner.lookup k) hsame
  liveOwner := fun _ hlive =>
    (congrArg (fun view => view.owner.lookup kref) hsame).trans hlive.1
  clistK := fun vatID _ k => congrArg (fun view => view.clistK.lookup (vatID, k)) hsame
  gcKept := by
    have hgc : t.store.gcActions = u.store.gcActions := congrArg CountView.gcActions hsame
    rw [hgc]
    exact fun _ h => h
  gcNew := by
    have hgc : t.store.gcActions = u.store.gcActions := congrArg CountView.gcActions hsame
    rw [hgc]
    exact fun _ => .inl
  kept := fun _ h => mem_insertAll.mpr (.inl h)
  own := fun action h => (mem_insertAll.mp h).imp_right (hown action)
  absent := fun k hnone => (countOf_congr (congrArg (fun view => view.promises.lookup k) hsame)
    (congrArg (fun view => view.refCount.lookup k) hsame)).trans hnone
  excess := by
    intro k _ _
    unfold KVStore.excessOf
    rw [show t.store.refCount.lookup k = u.store.refCount.lookup k from
      congrArg (fun view => view.refCount.lookup k) hsame]

theorem countOf_retired (htype : kref.type = .object) (hretired : Retired kref u t) (k : KSlot) :
    t.store.countOf k = if k = kref then none else u.store.countOf k := by
  by_cases hk : k = kref
  · subst hk
    unfold KVStore.countOf
    rw [htype, hretired.refCount]
    simp
  · rw [if_neg hk]
    apply countOf_congr
    · rw [hretired.promises]
    · rw [hretired.refCount, Table.lookup_erase, if_neg hk]

theorem advances_of_retired (htype : kref.type = .object) (hretired : Retired kref u t)
    (hdead : ∀ vatID, ¬ LiveOwner u kref vatID) : Advances u t kref actions actions where
  terminatedVats := hretired.terminatedVats
  owner := hretired.owner
  liveOwner := fun vatID hlive => absurd hlive (hdead vatID)
  clistK := hretired.clistK
  gcKept := hretired.gcKept
  gcNew := hretired.gcNew
  kept := fun _ h => h
  own := fun _ => .inl
  absent := by
    intro k hnone
    rw [countOf_retired htype hretired]
    split
    · rfl
    · exact hnone
  excess := by
    intro k _ hcounted
    rw [countOf_retired htype hretired] at hcounted
    split at hcounted
    · exact absurd rfl hcounted
    · next hne =>
      unfold KVStore.excessOf
      rw [hretired.refCount, Table.lookup_erase, if_neg hne]

theorem Visiting.object (h : Visiting s u freed i actions) (hi : u.maybeFreeKrefs[i]? = some kref)
    (htype : kref.type = .object) {more : List GcAction} (hvisit : ObjectVisit kref u t more) :
    ∃ freed', Visiting s t freed' (i + 1) (more.foldl addIfMissing actions) := by
  have hout := h.not_freed hi
  have hnil : s.store.slotsOf kref = [] := slotsOf_object htype
  have hnone : u.store.countOf kref = none → ¬ s.store.countOf kref ≠ none :=
    fun hnone hcounted => hcounted ((h.counted_iff hout).mpr hnone)
  -- no slots are given up, so the counts stay and nothing is put in
  have henough (k : KSlot) (n : Nat) (_ : u.store.countOf k = some n) :
      (s.store.slotsOf kref).count k ≤ n := by simp [hnil]
  have hnew (k : KSlot) : k ∈ ([] : List KSlot) ↔ k ∉ u.maybeFreeKrefs ∧
      0 < (s.store.slotsOf kref).count k ∧ t.store.countOf k = some 0 := by simp [hnil]
  cases hvisit with
  | held hheld hsame hmore =>
    subst hsame hmore
    obtain ⟨n, hn, hne⟩ := hheld
    refine ⟨freed, h.skip hi (Advances.refl t kref actions) (fun _ => ⟨?_, rfl, rfl⟩) rfl rfl rfl rfl⟩
    rw [hn]
    exact fun hzero => hne (Option.some.inj hzero)
  | owned vatID flag vref hcounted howner hlive hclist hsame hown hdrop hretire =>
    have hadvances : Advances u t kref actions _ := advances_of_same hsame hown
    have hcounts : t.store.countOf = u.store.countOf := by
      funext k
      exact countOf_congr (congrArg (fun view => view.promises.lookup k) hsame)
        (congrArg (fun view => view.refCount.lookup k) hsame)
    have hslots : t.store.slotsOf = u.store.slotsOf := by
      funext k
      exact slotsOf_congr (congrArg (fun view => view.promises.lookup k) hsame)
    have hset : t.maybeFreeKrefs = u.maybeFreeKrefs := congrArg CountView.maybeFreeKrefs hsame
    have hslotCount : t.store.slotCount = u.store.slotCount :=
      congrArg (fun view => view.promises.sumOver fun _ p => p.state.slots.length) hsame
    cases hcount : u.store.countOf kref with
    | none =>
      exact ⟨freed, h.skip hi hadvances (fun hcounted => absurd hcounted (hnone hcount)) hcounts
        hslots hset hslotCount⟩
    | some n =>
      have hzero : n = 0 := hcounted n hcount
      subst hzero
      have hne : u.store.countOf kref ≠ none := by
        rw [hcount]
        exact nofun
      have hliveS : LiveOwner s kref vatID := (h.live_iff hout hne).mp ⟨howner, hlive⟩
      have hunique (v : VatID) (hv : LiveOwner s kref v) : v = vatID :=
        Option.some.inj (hv.1.symm.trans hliveS.1)
      refine ⟨insert kref freed, h.freeing hi hadvances hcount ?_ ?_ henough ?_ ?_ ?_ []
        (by rw [hset, List.append_nil]) List.nodup_nil hnew (by rw [hset, hslotCount])⟩
      · intro k
        rw [hslots]
        split
        · next hk => rw [hk, slotsOf_object htype]
        · rfl
      · intro k _
        rw [hcounts, hnil, List.count_nil, map_sub_zero]
      · exact fun hdead => absurd ⟨htype, hliveS⟩ (hdead vatID)
      · intro _ v hv hflag
        cases hunique v hv
        obtain ⟨vref', hvref'⟩ := (FlaggedReachable.visited h hv.2).mpr hflag
        cases hclist.symm.trans hvref'
        exact mem_insertAll.mpr (.inr (hdrop rfl))
      · intro _ v hv hexcess
        cases hunique v hv
        rw [← h.excess kref htype hne] at hexcess
        exact mem_insertAll.mpr (.inr (hretire hexcess))
  | retired hcounted hdead hretired hmore =>
    subst hmore
    have hnotLive (v : VatID) : ¬ LiveOwner u kref v := fun hv => hv.2 (hdead v hv.1)
    have hadvances : Advances u t kref actions actions :=
      advances_of_retired htype hretired hnotLive
    have hslots : t.store.slotsOf = u.store.slotsOf := by
      funext k
      apply slotsOf_congr
      rw [hretired.promises]
    have hslotCount : t.store.slotCount = u.store.slotCount := by
      unfold KVStore.slotCount
      rw [hretired.promises]
    cases hcount : u.store.countOf kref with
    | none =>
      have hcounts : t.store.countOf = u.store.countOf := by
        funext k
        rw [countOf_retired htype hretired]
        split
        · next hk => rw [hk, hcount]
        · rfl
      exact ⟨freed, h.skip hi hadvances (fun hcounted => absurd hcounted (hnone hcount)) hcounts
        hslots hretired.maybeFreeKrefs hslotCount⟩
    | some n =>
      have hzero : n = 0 := hcounted n hcount
      subst hzero
      refine ⟨insert kref freed, h.freeing hi hadvances hcount ?_ ?_ henough ?_ ?_ ?_ []
        (by rw [hretired.maybeFreeKrefs, List.append_nil]) List.nodup_nil hnew
        (by rw [hretired.maybeFreeKrefs, hslotCount])⟩
      · intro k
        rw [hslots]
        split
        · next hk => rw [hk, slotsOf_object htype]
        · rfl
      · intro k hk
        rw [countOf_retired htype hretired, if_neg hk, hnil, List.count_nil, map_sub_zero]
      · intro _
        rw [countOf_retired htype hretired, if_pos rfl]
      · exact fun _ v hv => absurd (hv.visited h) (hnotLive v)
      · exact fun _ v hv => absurd (hv.visited h) (hnotLive v)

theorem countOf_deleted {v : KernelState} (htype : kref.type = .promise)
    (ht : t.counted = { v.counted with promises := v.store.promises.erase kref }) (k : KSlot) :
    t.store.countOf k = if k = kref then none else v.store.countOf k := by
  have hpromises : t.store.promises = v.store.promises.erase kref := congrArg CountView.promises ht
  have hrefCount : t.store.refCount = v.store.refCount := congrArg CountView.refCount ht
  by_cases hk : k = kref
  · subst hk
    unfold KVStore.countOf
    rw [htype, hpromises]
    simp
  · rw [if_neg hk]
    apply countOf_congr
    · rw [hpromises, Table.lookup_erase, if_neg hk]
    · rw [hrefCount]

theorem slotCount_deleted {v : KernelState} (htype : kref.type = .promise)
    (hcount : u.store.countOf kref = some 0)
    (hdecremented : Decremented (u.store.slotsOf kref) u v)
    (ht : t.counted = { v.counted with promises := v.store.promises.erase kref }) :
    t.maybeFreeKrefs.length + t.store.slotCount ≤ u.maybeFreeKrefs.length + u.store.slotCount := by
  obtain ⟨added, hset, hnodup, hadded⟩ := hdecremented.set
  have htset : t.maybeFreeKrefs = v.maybeFreeKrefs := congrArg CountView.maybeFreeKrefs ht
  have hle : added.length ≤ (u.store.slotsOf kref).length := by
    apply (hnodup.subperm fun k hk => ?_).length_le
    exact List.count_pos_iff.mp ((hadded k).mp hk).2.1
  have hcounted := hdecremented.counts kref
  rw [hcount] at hcounted
  unfold KVStore.countOf at hcounted
  rw [htype] at hcounted
  obtain ⟨p, hp, -⟩ := Option.map_eq_some_iff.mp hcounted
  have hslots : v.store.slotsOf kref = p.state.slots := by
    unfold KVStore.slotsOf
    rw [htype, hp]
    rfl
  have hsum : t.store.slotCount + p.state.slots.length = v.store.slotCount := by
    have hpromises : t.store.promises = v.store.promises.erase kref :=
      congrArg CountView.promises ht
    unfold KVStore.slotCount
    rw [hpromises]
    exact Table.sumOver_erase_some (f := fun _ p => p.state.slots.length) hp
  have hsame := hdecremented.slotCount
  rw [← hdecremented.slotsOf kref, hslots] at hle
  rw [htset, hset, List.length_append]
  omega

theorem Visiting.promise (h : Visiting s u freed i actions) (hi : u.maybeFreeKrefs[i]? = some kref)
    (htype : kref.type = .promise) (hvisit : PromiseVisit kref u t) :
    ∃ freed', Visiting s t freed' (i + 1) actions := by
  have hout := h.not_freed hi
  have hnotObject : kref.type ≠ .object := by
    rw [htype]
    exact nofun
  cases hvisit with
  | left hcount hsame =>
    subst hsame
    exact ⟨freed, h.skip hi (Advances.refl t kref actions) (fun _ => ⟨hcount, rfl, rfl⟩)
      rfl rfl rfl rfl⟩
  | deleted v hcount hdecremented ht =>
    have hslotsS : u.store.slotsOf kref = s.store.slotsOf kref := by
      rw [h.slotsOf, if_neg hout]
    have hbefore := slotCount_deleted htype hcount hdecremented ht
    rw [hslotsS] at hdecremented
    obtain ⟨added, hset, hnodup, hadded⟩ := hdecremented.set
    have hcounts := countOf_deleted htype ht
    have howner : t.store.owner = u.store.owner :=
      (congrArg CountView.owner ht).trans hdecremented.owner
    have hclist : t.store.clistK = u.store.clistK :=
      (congrArg CountView.clistK ht).trans hdecremented.clistK
    have hgc : t.store.gcActions = u.store.gcActions :=
      (congrArg CountView.gcActions ht).trans hdecremented.gcActions
    have hin : kref ∈ u.maybeFreeKrefs := List.mem_of_getElem? hi
    refine ⟨insert kref freed, h.freeing hi ?_ hcount ?_ ?_ hdecremented.enough ?_ ?_ ?_ added ?_
      hnodup ?_ hbefore⟩
    · constructor
      case terminatedVats => exact (congrArg CountView.terminatedVats ht).trans hdecremented.terminatedVats
      case owner => exact fun k _ => by rw [howner]
      case liveOwner => exact fun vatID hlive => by rw [howner]; exact hlive.1
      case clistK => exact fun vatID _ k => by rw [hclist]
      case gcKept => rw [hgc]; exact fun _ h => h
      case gcNew => rw [hgc]; exact fun _ => .inl
      case kept => exact fun _ h => h
      case own => exact fun _ => .inl
      case absent =>
        intro k hnone
        rw [hcounts, hdecremented.counts, hnone]
        split <;> rfl
      case excess =>
        intro k _ _
        rw [← hdecremented.excess]
        unfold KVStore.excessOf
        rw [show t.store.refCount = v.store.refCount from congrArg CountView.refCount ht]
    · intro k
      have hpromises : t.store.promises = v.store.promises.erase kref :=
        congrArg CountView.promises ht
      split
      · next hk =>
        subst hk
        unfold KVStore.slotsOf
        rw [htype, hpromises]
        simp
      · next hk =>
        rw [← hdecremented.slotsOf]
        apply slotsOf_congr
        rw [hpromises, Table.lookup_erase, if_neg hk]
    · intro k hk
      rw [hcounts, if_neg hk]
      exact hdecremented.counts k
    · intro _
      rw [hcounts, if_pos rfl]
    · exact fun hobject => absurd hobject hnotObject
    · exact fun hobject => absurd hobject hnotObject
    · exact (congrArg CountView.maybeFreeKrefs ht).trans hset
    · intro k
      rw [hadded]
      have hne (hnew : k ∉ u.maybeFreeKrefs) : k ≠ kref := fun hk => hnew (hk ▸ hin)
      constructor
      · rintro ⟨hnew, hpos, hzero⟩
        exact ⟨hnew, hpos, by rw [hcounts, if_neg (hne hnew)]; exact hzero⟩
      · rintro ⟨hnew, hpos, hzero⟩
        rw [hcounts, if_neg (hne hnew)] at hzero
        exact ⟨hnew, hpos, hzero⟩

theorem Visiting.start (s : KernelState) (hset : s.maybeFreeKrefs.Nodup) :
    Visiting s s ∅ 0 [] := by
  have hdrops (k : KSlot) : (holdings s).drops ∅ k = 0 := rfl
  constructor
  case counts =>
    intro k _
    rw [hdrops, map_sub_zero]
  case slotsOf => simp
  case enough => simp [hdrops]
  case set => exact ⟨[], by simp, by simp [hdrops]⟩
  case liveOwner => exact fun _ _ h => h.1
  case nodup => exact hset
  case gcNew => exact fun _ => .inl
  case gcKept => exact fun _ h => h
  all_goals simp

theorem visitMaybeFree_spec (fuel : Nat) (h : Visiting s u freed i actions)
    (hfuel : s.maybeFreeKrefs.length + s.store.slotCount < i + fuel) :
    Wp (visitMaybeFree fuel i actions)
      (fun actions' t => ∃ freed', Visiting s t freed' t.maybeFreeKrefs.length actions')
      (fun _ _ => True) u := by
  induction fuel generalizing u freed i actions with
  | zero =>
    have hvisited := h.visited
    have hcount := h.slotCount
    omega
  | succ fuel ih =>
    unfold visitMaybeFree
    rw [wp_bind, wp_get]
    cases hi : u.maybeFreeKrefs[i]? with
    | none =>
      have hlength : i = u.maybeFreeKrefs.length :=
        le_antisymm h.visited (List.getElem?_eq_none_iff.mp hi)
      exact ⟨freed, hlength ▸ h⟩
    | some kref =>
      cases htype : kref.type with
      | promise =>
        simp only [htype, wp_bind]
        refine wp_mono (processPromiseRefcount_spec htype) ?_ fun _ _ _ => trivial
        intro _ t hvisit
        obtain ⟨freed', h'⟩ := h.promise hi htype hvisit
        exact ih h' (by omega)
      | object =>
        simp only [htype, wp_bind]
        refine wp_mono (processObjectRefcount_spec htype) ?_ fun _ _ _ => trivial
        intro more t hvisit
        obtain ⟨freed', h'⟩ := h.object hi htype hvisit
        exact ih h' (by omega)
      | device =>
        have hnone : s.store.countOf kref = none := by
          unfold KVStore.countOf
          rw [htype]
        have h' := h.skip hi (Advances.refl u kref actions) (fun hcounted => absurd hnone hcounted)
          rfl rfl rfl rfl
        simp only [htype]
        exact ih h' (by omega)

theorem Visiting.pass (h : Visiting s u freed u.maybeFreeKrefs.length actions) :
    (holdings s).Pass (reachedKrefs s) s.maybeFreeKrefs freed := by
  obtain ⟨added, hset, hadded⟩ := h.set
  constructor
  case free => exact h.free
  case inTurn =>
    intro j k hj _ hcounted
    refine h.inTurn j ?_ k hj hcounted
    exact (List.getElem?_eq_some_iff.mp (h.getElem?_set hj)).1
  case late =>
    intro k _ hnew hne hlost
    obtain ⟨n, hn, hle⟩ := id hlost
    have hn : s.store.countOf k = some n := hn
    have hpos : 0 < (holdings s).drops freed k := by
      have hnpos : n ≠ 0 := fun hnil => hne (hnil ▸ hn)
      omega
    have hin : k ∈ u.maybeFreeKrefs := by
      rw [hset]
      exact List.mem_append_right _ ((hadded k).mpr ⟨hnew, hpos, hne, hlost⟩)
    obtain ⟨j, hj⟩ := List.mem_iff_getElem?.mp hin
    exact h.late j (List.getElem?_eq_some_iff.mp hj).1 k hj hnew
  case held =>
    intro k hk hnew
    have hin := List.mem_of_mem_take (h.before k hk)
    rw [hset, List.mem_append] at hin
    exact ((hadded k).mp (hin.resolve_left hnew)).2.2.1

end Visiting

section Completeness

variable {s t : KernelState}

theorem processRefcounts_spec (hset : s.maybeFreeKrefs.Nodup) :
    Wp processRefcounts (fun _ t => ∃ u freed actions gcActions,
      Visiting s u freed u.maybeFreeKrefs.length actions ∧
      t.store = { u.store with gcActions } ∧ t.terminatedVats = u.terminatedVats ∧
      ∀ action, action ∈ gcActions ↔ action ∈ u.store.gcActions ∨ action ∈ actions)
      (fun _ _ => True) s := by
  unfold processRefcounts
  rw [wp_bind, wp_get, wp_bind]
  refine wp_mono (visitMaybeFree_spec (refcountFuel s) (Visiting.start s hset) ?_) ?_
    fun _ _ _ => trivial
  · unfold refcountFuel KVStore.slotCount
    omega
  · rintro actions u ⟨freed, h⟩
    rw [wp_bind]
    refine wp_mono (addGCActions_spec actions) ?_ fun _ _ _ => trivial
    rintro _ v ⟨gcActions, rfl, hgc⟩
    exact ⟨u, freed, actions, gcActions, h, rfl, rfl, hgc⟩

variable {u : KernelState} {freed : Finset KSlot} {actions gcActions : List GcAction}

theorem recognizable_zero_iff {st : KVStore} {kref : KSlot} (htype : kref.type = .object)
    (hcount : st.countOf kref = some 0) :
    st.refCount.lookup kref = some (0, 0) ↔ st.excessOf kref = some 0 := by
  unfold KVStore.countOf at hcount
  unfold KVStore.excessOf
  rw [htype] at hcount
  obtain ⟨⟨reachable, recognizable⟩, hlookup, hzero⟩ := Option.map_eq_some_iff.mp hcount
  have hzero : reachable = 0 := hzero
  rw [hlookup, hzero]
  simp

/-- The pass leaves nothing to be done iff it freed what lost its references, those that need
nothing apart. -/
theorem processed_iff (h : Visiting s u freed u.maybeFreeKrefs.length actions)
    (hstore : t.store = { u.store with gcActions }) (hterminated : t.terminatedVats = u.terminatedVats)
    (hgc : ∀ action, action ∈ gcActions ↔ action ∈ u.store.gcActions ∨ action ∈ actions) :
    RefcountsProcessed s t ↔ ∀ kref ∈ reachedKrefs s, (holdings s).Lost freed kref →
      kref ∈ freed ∨ NeedsNothing s kref := by
  have hcount (k : KSlot) : t.store.countOf k = u.store.countOf k := by
    rw [hstore]
    rfl
  have hactions : t.store.gcActions = gcActions := by rw [hstore]
  have hlive (k : KSlot) (vatID : VatID) : LiveOwner t k vatID ↔ LiveOwner u k vatID := by
    unfold LiveOwner
    rw [hstore, hterminated]
  have hflag (k : KSlot) (vatID : VatID) :
      FlaggedReachable t vatID k ↔ FlaggedReachable u vatID k := by
    unfold FlaggedReachable
    rw [hstore]
  have hretire (k : KSlot) (htype : k.type = .object) (hzero : t.store.countOf k = some 0) :
      t.store.refCount.lookup k = some (0, 0) ↔ s.store.excessOf k = some 0 := by
    have hcounted : u.store.countOf k ≠ none := by
      rw [← hcount, hzero]
      exact nofun
    rw [recognizable_zero_iff htype hzero, ← h.excess k htype hcounted, hstore]
    rfl
  -- an export action for a kref that was not freed was there before
  have hbefore (action : GcAction) (hout : action.kref ∉ freed)
      (hcounted : s.store.countOf action.kref ≠ none) (htype : action.type ≠ .retireImport)
      (hin : action ∈ t.store.gcActions) : action ∈ s.store.gcActions := by
    rw [hactions, hgc] at hin
    rcases hin with hin | hin
    · exact (h.gcNew action hin).resolve_right htype
    · rcases h.own action hin with hfreed | hnone
      · exact absurd hfreed hout
      · exact absurd hnone hcounted
  have hkept (action : GcAction) (hin : action ∈ s.store.gcActions) :
      action ∈ t.store.gcActions := by
    rw [hactions, hgc]
    exact .inl (h.gcKept action hin)
  have hadded (action : GcAction) (hin : action ∈ actions) : action ∈ t.store.gcActions := by
    rw [hactions, hgc]
    exact .inr hin
  have hcountedOf {k : KSlot} (hout : k ∉ freed) (hzero : t.store.countOf k = some 0) :
      u.store.countOf k ≠ none ∧ s.store.countOf k ≠ none := by
    have hne : u.store.countOf k ≠ none := by
      rw [← hcount, hzero]
      exact nofun
    exact ⟨hne, fun hnone => hne ((h.counted_iff hout).mp hnone)⟩
  constructor
  · intro hprocessed kref hreached hlost
    by_cases hout : kref ∈ freed
    · exact .inl hout
    · have hreached := mem_reachedKrefs.mp hreached
      have hzero : t.store.countOf kref = some 0 := (hcount kref).trans ((h.zero_iff hout).mpr hlost)
      obtain ⟨hcountedU, hcountedS⟩ := hcountedOf hout hzero
      cases htype : kref.type with
      | promise => exact absurd hzero (hprocessed.promises kref hreached htype)
      | device =>
        unfold KVStore.countOf at hzero
        rw [htype] at hzero
        cases hzero
      | object =>
        obtain ⟨vatID, hliveT⟩ := hprocessed.orphans kref hreached htype hzero
        have hliveS := (h.live_iff hout hcountedU).mp ((hlive kref vatID).mp hliveT)
        refine .inr ⟨htype, vatID, hliveS, fun hflagS => ?_, fun hexcess => ?_⟩
        · have hflagT := (hflag kref vatID).mpr ((FlaggedReachable.visited h hliveS.2).mpr hflagS)
          exact hbefore _ hout hcountedS nofun
            (hprocessed.drops kref vatID hreached htype hzero hliveT hflagT)
        · exact hbefore _ hout hcountedS nofun
            (hprocessed.retires kref vatID hreached htype
              ((hretire kref htype hzero).mpr hexcess) hliveT)
  · intro hall
    have hcase {k : KSlot} (hreached : ReachedFrom s k) (hzero : t.store.countOf k = some 0) :
        k ∈ freed ∨ NeedsNothing s k := by
      by_cases hout : k ∈ freed
      · exact .inl hout
      · apply hall k (mem_reachedKrefs.mpr hreached)
        rw [← h.zero_iff hout, ← hcount]
        exact hzero
    have hliveOf {k : KSlot} {vatID : VatID} (hliveS : LiveOwner s k vatID) : LiveOwner t k vatID :=
      (hlive k vatID).mpr (hliveS.visited h)
    -- a freed object that is still counted has a live owner
    have hfreedLive {k : KSlot} (hin : k ∈ freed) (hzero : t.store.countOf k = some 0) :
        k.type = .object ∧ ∃ vatID, LiveOwner s k vatID := by
      by_contra hdead
      have hnone := h.deleted k hin fun vatID hv => hdead ⟨hv.1, vatID, hv.2⟩
      rw [← hcount, hzero] at hnone
      cases hnone
    have hunique {k : KSlot} {vatID vatID' : VatID} (hliveS : LiveOwner s k vatID)
        (hliveT : LiveOwner t k vatID') : vatID = vatID' :=
      Option.some.inj ((hliveOf hliveS).1.symm.trans hliveT.1)
    constructor
    · intro kpid hreached htype hzero
      rcases hcase hreached hzero with hin | hneeds
      · have hobject := (hfreedLive hin hzero).1
        rw [htype] at hobject
        cases hobject
      · rw [hneeds.1] at htype
        cases htype
    · intro kref hreached _ hzero
      rcases hcase hreached hzero with hin | ⟨_, vatID, hliveS, _⟩
      · obtain ⟨_, vatID, hliveS⟩ := hfreedLive hin hzero
        exact ⟨vatID, hliveOf hliveS⟩
      · exact ⟨vatID, hliveOf hliveS⟩
    · intro kref vatID hreached htype hzero hliveT hflagT
      have hflagU := (hflag kref vatID).mp hflagT
      rcases hcase hreached hzero with hin | ⟨_, vatID', hliveS, hdrop, _⟩
      · obtain ⟨_, vatID', hliveS⟩ := hfreedLive hin hzero
        cases hunique hliveS hliveT
        have hflagS := (FlaggedReachable.visited h hliveS.2).mp hflagU
        exact hadded _ (h.drops kref hin htype _ hliveS hflagS)
      · cases hunique hliveS hliveT
        exact hkept _ (hdrop ((FlaggedReachable.visited h hliveS.2).mp hflagU))
    · intro kref vatID hreached htype hlookup hliveT
      have hzero : t.store.countOf kref = some 0 := by
        unfold KVStore.countOf
        rw [htype, hlookup]
        rfl
      have hexcess := (hretire kref htype hzero).mp hlookup
      rcases hcase hreached hzero with hin | ⟨_, vatID', hliveS, _, hretires⟩
      · obtain ⟨_, vatID', hliveS⟩ := hfreedLive hin hzero
        cases hunique hliveS hliveT
        exact hadded _ (h.retires kref hin htype _ hliveS hexcess)
      · cases hunique hliveS hliveT
        exact hkept _ (hretires hexcess)

/-- The pass is complete iff everything that it frees is freed in time. -/
theorem processRefcounts_complete_iff (hset : s.maybeFreeKrefs.Nodup)
    (h : processRefcounts s = .ok ⟨⟩ t) : RefcountsProcessed s t ↔ FreedInTime s := by
  obtain ⟨u, freed, actions, gcActions, hvisiting, hstore, hterminated, hgc⟩ :=
    wp_of_ok (processRefcounts_spec hset) h
  rw [processed_iff hvisiting hstore hterminated hgc]
  apply hvisiting.pass.complete_iff
  intro kref hneeds b
  show (s.store.slotsOf kref).count b = 0
  rw [slotsOf_object hneeds.1, List.count_nil]

theorem ok_finalState {m : KM PUnit} {s : KernelState}
    (h : (match m s with
      | .ok _ _ => true
      | .error _ _ => false) = true) : m s = .ok ⟨⟩ (finalState m s) := by
  unfold finalState
  cases hm : m s with
  | ok _ t => rfl
  | error e t => simp [hm] at h

/-- An object that a terminated vat had exported, and a settled promise that refers to it and
that no vat refers to any more, with both in the set. -/
def orphaned (maybeFreeKrefs : List KSlot) : KernelState :=
  let s := startingState {
    vats := []
    devices := []
    bundles := []
    bootstrap := none
    pinBootstrapRoot := false
    defaultReapDirtThreshold := ⟨.never, .never, .never, true⟩ }
  { s with
    store := { s.store with
      refCount := Table.insert ∅ (.object 20) (1, 1)
      promises := Table.insert ∅ (.promise 40) ⟨0, .fulfilled ⟨.value [], [.object 20]⟩⟩ }
    maybeFreeKrefs }

theorem processRefcounts_promiseFirst :
    RefcountsProcessed (orphaned [.promise 40, .object 20])
      (finalState processRefcounts (orphaned [.promise 40, .object 20])) ↔
    FreedInTime (orphaned [.promise 40, .object 20]) :=
  processRefcounts_complete_iff (by decide) (ok_finalState (by decide +kernel))

/-- The object before the promise is seen while the promise still refers to it, and stays. -/
theorem object_missed : ¬ ∀ s t : KernelState, s.maybeFreeKrefs.Nodup →
    processRefcounts s = .ok ⟨⟩ t → RefcountsProcessed s t := by
  intro h
  have hprocessed := h (orphaned [.object 20, .promise 40]) _ (by decide)
    (ok_finalState (by decide +kernel))
  have hcount : (finalState processRefcounts (orphaned [.object 20, .promise 40])).store.countOf
      (.object 20) = some 0 := by decide +kernel
  have howner : (finalState processRefcounts (orphaned [.object 20, .promise 40])).store.owner.lookup
      (.object 20) = none := by decide +kernel
  obtain ⟨vatID, hlive, -⟩ := hprocessed.orphans (.object 20)
    (.listed (List.mem_cons_self ..)) rfl hcount
  rw [howner] at hlive
  cases hlive

end Completeness

end AgoricSdk.SwingSet
