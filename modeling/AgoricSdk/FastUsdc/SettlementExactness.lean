import AgoricSdk.FastUsdc.SettlementMatcher

/-!
Settlement is exact. The pending transactions of an address stay in descending order of
amount; of a mint they give up a combination that sums to it wherever there is one.
-/

namespace AgoricSdk.FastUsdc

section Insertion

variable {α : Type} {compare : α → α → Int} {array : List α} {item : α}

theorem insertionIndex_le (i : Nat) : insertionIndex compare array item i ≤ i := by
  induction i with
  | zero => exact le_rfl
  | succ i ih =>
    rw [insertionIndex]
    split
    · split
      · omega
      · exact le_rfl
    · exact le_rfl

theorem insertionIndex_spec (compare : α → α → Int) (array : List α) (item : α) (i : Nat) :
    (∀ k a, insertionIndex compare array item i ≤ k → k < i → array[k]? = some a →
        compare item a < 0) ∧
      ∀ j a, insertionIndex compare array item i = j + 1 → array[j]? = some a →
        0 ≤ compare item a := by
  induction i with
  | zero =>
    constructor
    · intro k a _ hk
      omega
    · intro j a hj
      rw [insertionIndex] at hj
      omega
  | succ i ih =>
    obtain ⟨hafter, hbefore⟩ := ih
    rw [insertionIndex]
    cases hitem : array[i]? with
    | none =>
      dsimp only
      constructor
      · intro k a hk hki
        omega
      · intro j a hj hitem'
        have hij : j = i := by omega
        rw [hij, hitem] at hitem'
        cases hitem'
    | some b =>
      dsimp only
      split
      next hlt =>
        constructor
        · intro k a hk hki ha
          by_cases heq : k = i
          · rw [heq, hitem] at ha
            cases ha
            exact hlt
          · exact hafter k a hk (by omega) ha
        · exact hbefore
      next hge =>
        constructor
        · intro k a hk hki
          omega
        · intro j a hj hitem'
          have hij : j = i := by omega
          rw [hij, hitem] at hitem'
          cases hitem'
          omega

theorem insertIntoSortedArray_perm :
    (insertIntoSortedArray compare array item).Perm (item :: array) := by
  unfold insertIntoSortedArray
  apply List.perm_middle.trans
  rw [List.take_append_drop]

theorem insertIntoSortedArray_sorted (key : α → Int)
    (hkey : ∀ a b, compare a b = key b - key a)
    (hsorted : array.Pairwise fun a b => key b ≤ key a) :
    (insertIntoSortedArray compare array item).Pairwise fun a b => key b ≤ key a := by
  unfold insertIntoSortedArray
  obtain ⟨hafter, hbefore⟩ := insertionIndex_spec compare array item array.length
  have hle : insertionIndex compare array item array.length ≤ array.length := insertionIndex_le _
  generalize insertionIndex compare array item array.length = i at hafter hbefore hle
  have hparts := List.pairwise_append.mp ((List.take_append_drop i array).symm ▸ hsorted)
  obtain ⟨htake, hdrop, hacross⟩ := hparts
  have hsmaller : ∀ b ∈ array.drop i, key b ≤ key item := by
    intro b hb
    obtain ⟨k, hk⟩ := List.mem_iff_getElem?.mp hb
    rw [List.getElem?_drop] at hk
    have hlength := (List.getElem?_eq_some_iff.mp hk).1
    have hcompare := hafter (i + k) b (by omega) hlength hk
    rw [hkey] at hcompare
    omega
  have hlarger : ∀ a ∈ array.take i, key item ≤ key a := by
    intro a ha
    cases i with
    | zero => cases ha
    | succ j =>
      -- The item before the gap is no smaller, and those before it are larger still.
      obtain ⟨k, hk, rfl⟩ := List.mem_take_iff_getElem.mp ha
      have hj : j < array.length := by omega
      have hcompare := hbefore j array[j] rfl (List.getElem?_eq_getElem hj)
      rw [hkey] at hcompare
      rcases Nat.lt_or_ge k j with hkj | hjk
      · have hkey' := List.pairwise_iff_getElem.mp hsorted k j (by omega) hj hkj
        omega
      · have hkj : k = j := by omega
        subst hkj
        omega
  apply List.pairwise_append.mpr
  refine ⟨htake, List.pairwise_cons.mpr ⟨hsmaller, hdrop⟩, ?_⟩
  intro a ha b hb
  rcases List.mem_cons.mp hb with rfl | hb
  · exact hlarger a ha
  · exact hacross a ha b hb

end Insertion

section Matching

variable {list : List PendingTx} {amount : Nat}

def amountOf (txs : List PendingTx) : Nat := (txs.map fun tx => tx.tx.amount).sum

/-- Some of the transactions add up to the amount. -/
def Matchable (txs : List PendingTx) (amount : Nat) : Prop :=
  ∃ chosen, chosen.Sublist txs ∧ amountOf chosen = amount

/-- As many transactions as the search follows come to less than the amount. -/
def TooDeep (txs : List PendingTx) (amount : Nat) : Prop :=
  ∃ chosen, chosen.Sublist txs ∧ chosen.length = MAX_MATCH_DEPTH ∧ amountOf chosen < amount

theorem total_eq_amountOf (combo : List Position) : total combo = amountOf (combo.map Prod.fst) := by
  rw [total, amountOf, List.map_map]
  rfl

theorem sublist_of_positions {combo : List Position} (h : combo.Sublist list.zipIdx) :
    (combo.map Prod.fst).Sublist list := by
  have hmap := h.map Prod.fst
  rwa [List.zipIdx_map_fst] at hmap

theorem matchable_iff :
    Matchable list amount ↔ ∃ combo, combo.Sublist list.zipIdx ∧ total combo = amount := by
  constructor
  · rintro ⟨chosen, hchosen, htotal⟩
    have hmap : chosen.Sublist (list.zipIdx.map Prod.fst) := by rwa [List.zipIdx_map_fst]
    obtain ⟨combo, hcombo, rfl⟩ := List.sublist_map_iff.mp hmap
    exact ⟨combo, hcombo, (total_eq_amountOf combo).trans htotal⟩
  · rintro ⟨combo, hcombo, htotal⟩
    exact ⟨_, sublist_of_positions hcombo, (total_eq_amountOf combo).symm.trans htotal⟩

theorem search_sound (address : NobleAddress) (pending : List Position) (amount : Nat) :
    SoundSearch address amount pending pending 0 []
      (dfs address amount pending 0 0 [] [] (tryEach address amount pending 0 0 [])) := by
  have hdead : AllDead pending amount [] := by
    intro index sum hmem
    cases hmem
  apply dfs_sound
  · exact fun hlt hdepth hdead => tryEach_sound address amount pending pending 0 0 [] [] rfl hlt
      hdepth hdead
  · rfl
  · exact Nat.zero_le _
  · exact Nat.zero_le _
  · exact hdead

theorem greedyMatch_error {fault : MatchFault} (h : greedyMatch list amount = .error fault) :
    TooDeep list amount := by
  cases list with
  | nil => cases h
  | cons first rest =>
    rw [greedyMatch] at h
    split at h
    · cases h
    · dsimp only at h
      have hsound := search_sound first.tx.forwardingAddress (first :: rest).zipIdx amount
      cases hresult : dfs first.tx.forwardingAddress amount (first :: rest).zipIdx 0 0 [] []
          (tryEach first.tx.forwardingAddress amount (first :: rest).zipIdx 0 0 []) with
      | ok search =>
        rw [hresult] at h
        cases h
      | error fault =>
        rw [hresult] at hsound
        obtain ⟨-, combo, hcombo, hlength, hbelow⟩ := hsound
        rw [total_eq_amountOf, Nat.zero_add] at hbelow
        exact ⟨_, sublist_of_positions hcombo, by simpa using hlength, hbelow⟩

theorem greedyMatch_ok {combo : List Position} (h : greedyMatch list amount = .ok combo) :
    combo.Sublist list.zipIdx ∧ (Matchable list amount → total combo = amount) ∧
      (¬Matchable list amount → combo = []) := by
  cases list with
  | nil =>
    cases h
    refine ⟨List.nil_sublist _, ?_, fun _ => rfl⟩
    rintro ⟨chosen, hchosen, rfl⟩
    rw [List.sublist_nil.mp hchosen]
    rfl
  | cons first rest =>
    rw [greedyMatch] at h
    split at h
    next hzero =>
      cases h
      exact ⟨List.nil_sublist _, fun _ => hzero.symm, fun _ => rfl⟩
    · dsimp only at h
      have hsound := search_sound first.tx.forwardingAddress (first :: rest).zipIdx amount
      cases hresult : dfs first.tx.forwardingAddress amount (first :: rest).zipIdx 0 0 [] []
          (tryEach first.tx.forwardingAddress amount (first :: rest).zipIdx 0 0 []) with
      | error fault =>
        rw [hresult] at h
        cases h
      | ok search =>
        obtain ⟨found, deadEnds⟩ := search
        rw [hresult] at h hsound
        cases h
        cases found with
        | some found =>
          obtain ⟨combo, hcombo, rfl, htotal⟩ := hsound
          rw [Nat.zero_add] at htotal
          refine ⟨hcombo, fun _ => htotal, ?_⟩
          exact fun hnone => absurd (matchable_iff.mpr ⟨_, hcombo, htotal⟩) hnone
        | none =>
          obtain ⟨-, hnone⟩ := hsound
          refine ⟨List.nil_sublist _, ?_, fun _ => rfl⟩
          intro hmatchable
          obtain ⟨combo, hcombo, htotal⟩ := matchable_iff.mp hmatchable
          exact absurd ((Nat.zero_add _).trans htotal) (hnone combo hcombo)

theorem positions_perm {combo : List Position} (h : combo.Sublist list.zipIdx) :
    list.Perm (combo.map Prod.fst ++ (list.zipIdx.filter (· ∉ combo)).map Prod.fst) := by
  have hnodup : list.zipIdx.Nodup := .of_map _ (List.nodup_zipIdx_map_snd list)
  have hchosen : (list.zipIdx.filter (· ∈ combo)).Perm combo := by
    apply (List.perm_ext_iff_of_nodup (hnodup.filter _) (h.nodup hnodup)).mpr
    intro tx
    rw [List.mem_filter, decide_eq_true_iff]
    exact ⟨fun hmem => hmem.2, fun hmem => ⟨h.subset hmem, hmem⟩⟩
  have hsplit := List.filter_append_perm (fun tx => decide (tx ∈ combo)) list.zipIdx
  have hpositions : list.zipIdx.Perm (combo ++ list.zipIdx.filter (· ∉ combo)) := by
    apply hsplit.symm.trans
    simp only [← decide_not]
    exact hchosen.append_right _
  have hmap := hpositions.map Prod.fst
  rwa [List.zipIdx_map_fst, List.map_append] at hmap

/-- What a mint takes from the list and what it leaves there. -/
structure Settled (list : List PendingTx) (amount : Nat) (matched remaining : List PendingTx) :
    Prop where
  matched_sublist : matched.Sublist list
  remaining_sublist : remaining.Sublist list
  perm : list.Perm (matched ++ remaining)
  exact : Matchable list amount → amountOf matched = amount
  none : ¬Matchable list amount → matched = []
  single : (∃ tx ∈ list, tx.tx.amount = amount) → ∃ tx, matched = [tx]

theorem settled_single {ix : Nat} (h : list.findIdx? (fun tx => tx.tx.amount = amount) = some ix) :
    Settled list amount (list[ix]?).toList (list.take ix ++ list.drop (ix + 1)) := by
  obtain ⟨hix, hamount, -⟩ := List.findIdx?_eq_some_iff_getElem.mp h
  have hamount' : list[ix].tx.amount = amount := of_decide_eq_true hamount
  have hmatched : amountOf [list[ix]] = amount := by simpa [amountOf] using hamount'
  have hsublist : [list[ix]].Sublist list := List.singleton_sublist.mpr (List.getElem_mem hix)
  rw [List.getElem?_eq_getElem hix, ← List.eraseIdx_eq_take_drop_succ]
  constructor
  · exact hsublist
  · exact List.eraseIdx_sublist ..
  · exact (List.getElem_cons_eraseIdx_perm hix).symm
  · exact fun _ => hmatched
  · exact fun hnone => absurd ⟨_, hsublist, hmatched⟩ hnone
  · exact fun _ => ⟨_, rfl⟩

theorem settled_combo {combo : List Position}
    (hnone : list.findIdx? (fun tx => tx.tx.amount = amount) = none)
    (h : greedyMatch list amount = .ok combo) :
    Settled list amount (combo.map Prod.fst)
      ((list.zipIdx.filter (· ∉ combo)).map Prod.fst) := by
  obtain ⟨hsublist, hexact, hempty⟩ := greedyMatch_ok h
  constructor
  · exact sublist_of_positions hsublist
  · exact sublist_of_positions List.filter_sublist
  · exact positions_perm hsublist
  · exact fun hmatchable => (total_eq_amountOf combo).symm.trans (hexact hmatchable)
  · intro hnot
    rw [hempty hnot]
    rfl
  · rintro ⟨tx, hmem, hamount⟩
    have hdiffers := List.findIdx?_eq_none_iff.mp hnone tx hmem
    simp [hamount] at hdiffers

/-- What is pending for an address. -/
def pendingOf (pendingSettleTxs : PendingSettleTxs) (nfa : NobleAddress) : List PendingTx :=
  (pendingSettleTxs.lookup nfa).getD []

variable {store store' : PendingSettleTxs} {nfa : NobleAddress} {matched : List PendingTx}

theorem settled_nil : Settled [] amount [] [] where
  matched_sublist := List.nil_sublist _
  remaining_sublist := List.nil_sublist _
  perm := .refl _
  exact := by
    rintro ⟨chosen, hchosen, rfl⟩
    rw [List.sublist_nil.mp hchosen]
  none _ := rfl
  single := by
    rintro ⟨tx, hmem, -⟩
    cases hmem

/-- The list under the address becomes what is left; none is kept under no address. -/
structure Dequeued (store : PendingSettleTxs) (nfa : NobleAddress) (amount : Nat)
    (matched : List PendingTx) (store' : PendingSettleTxs) : Prop where
  settled : Settled (pendingOf store nfa) amount matched (pendingOf store' nfa)
  others : ∀ other, other ≠ nfa → store'.lookup other = store.lookup other

theorem dequeued_insert {remaining : List PendingTx} (hlist : store.lookup nfa = some list)
    (h : Settled list amount matched remaining) :
    Dequeued store nfa amount matched (store.insert nfa remaining) := by
  constructor
  · simpa [pendingOf, hlist] using h
  · intro other hother
    rw [Table.lookup_insert, if_neg hother]

theorem dequeued_erase {remaining : List PendingTx} (hlist : store.lookup nfa = some list)
    (h : Settled list amount matched remaining) (hlength : remaining.length = 0) :
    Dequeued store nfa amount matched (store.erase nfa) := by
  have hnil : remaining = [] := List.length_eq_zero_iff.mp hlength
  subst hnil
  constructor
  · simpa [pendingOf, hlist] using h
  · intro other hother
    rw [Table.lookup_erase, if_neg hother]

theorem matchAndDequeueSettlement_ok
    (h : matchAndDequeueSettlement store nfa amount = .ok (matched, store')) :
    Dequeued store nfa amount matched store' := by
  unfold matchAndDequeueSettlement at h
  cases hlist : store.lookup nfa with
  | none =>
    rw [hlist] at h
    cases h
    constructor
    · simpa [pendingOf, hlist] using settled_nil
    · exact fun _ _ => rfl
  | some list =>
    rw [hlist] at h
    dsimp only at h
    split at h
    next ix hix =>
      have hsettled := settled_single hix
      split at h
      next =>
        cases h
        exact dequeued_insert hlist hsettled
      next hshort =>
        cases h
        apply dequeued_erase hlist hsettled
        have hlt := (List.findIdx?_eq_some_iff_getElem.mp hix).1
        simp
        omega
    next hnone =>
      obtain ⟨combo, hcombo, h⟩ := bind_eq_ok.mp h
      have hsettled := settled_combo hnone hcombo
      have hlength := hsettled.perm.length_eq
      split at h
      next hempty =>
        cases h
        have hnil : combo = [] := List.length_eq_zero_iff.mp hempty
        subst hnil
        constructor
        · simpa [pendingOf, hlist] using hsettled
        · exact fun _ _ => rfl
      · split at h
        · cases h
          exact dequeued_insert hlist hsettled
        next hall =>
          cases h
          apply dequeued_erase hlist hsettled
          rw [List.length_append, List.length_map] at hlength
          omega

theorem matchAndDequeueSettlement_error {fault : MatchFault}
    (h : matchAndDequeueSettlement store nfa amount = .error fault) :
    TooDeep (pendingOf store nfa) amount := by
  unfold matchAndDequeueSettlement at h
  cases hlist : store.lookup nfa with
  | none =>
    rw [hlist] at h
    cases h
  | some list =>
    rw [hlist] at h
    dsimp only at h
    rw [pendingOf, hlist]
    split at h
    · split at h <;> cases h
    · rcases bind_eq_error.mp h with hcombo | ⟨combo, -, h⟩
      · exact greedyMatch_error hcombo
      · split at h
        · cases h
        · split at h <;> cases h

end Matching

/-! ## Runs -/

section Runs

inductive SettleAction where
  | addPending (pending : PendingTx)
  | settle (nfa : NobleAddress) (amount : Nat)

def settling : TransitionSystem PendingSettleTxs SettleAction where
  init store := store = ∅
  step store
    | .addPending pending => some (addPendingSettleTx store pending)
    | .settle nfa amount => (matchAndDequeueSettlement store nfa amount).toOption.map Prod.snd

def Descending (list : List PendingTx) : Prop :=
  list.Pairwise fun a b => b.tx.amount ≤ a.tx.amount

/-- Under each address, its own transactions in descending order of amount. -/
def Ordered (store : PendingSettleTxs) : Prop :=
  ∀ nfa, Descending (pendingOf store nfa) ∧
    ∀ tx ∈ pendingOf store nfa, tx.tx.forwardingAddress = nfa

variable {store store' : PendingSettleTxs} {nfa : NobleAddress} {amount : Nat}
  {matched : List PendingTx}

theorem pendingOf_addPendingSettleTx (store : PendingSettleTxs) (pending : PendingTx)
    (nfa : NobleAddress) :
    pendingOf (addPendingSettleTx store pending) nfa =
      if nfa = pending.tx.forwardingAddress then
        insertIntoSortedArray comparePendingTxDesc (pendingOf store nfa) pending
      else pendingOf store nfa := by
  unfold addPendingSettleTx pendingOf
  cases hlist : store.lookup pending.tx.forwardingAddress with
  | none =>
    simp only [hlist, Table.lookup_insert]
    split
    next heq =>
      rw [heq, hlist]
      rfl
    · rfl
  | some list =>
    simp only [hlist, Table.lookup_insert]
    split
    next heq =>
      rw [heq, hlist]
      rfl
    · rfl

theorem addPendingSettleTx_ordered (hs : Ordered store) (pending : PendingTx) :
    Ordered (addPendingSettleTx store pending) := by
  intro nfa
  rw [pendingOf_addPendingSettleTx]
  split
  next heq =>
    obtain ⟨hsorted, hown⟩ := hs nfa
    constructor
    · have hkeys : (pendingOf store nfa).Pairwise
          fun a b => (b.tx.amount : Int) ≤ a.tx.amount :=
        hsorted.imp fun h => Int.ofNat_le.mpr h
      have hinserted : (insertIntoSortedArray comparePendingTxDesc (pendingOf store nfa)
          pending).Pairwise fun a b => (b.tx.amount : Int) ≤ a.tx.amount :=
        insertIntoSortedArray_sorted (fun tx : PendingTx => (tx.tx.amount : Int)) (fun _ _ => rfl) hkeys
      exact hinserted.imp fun h => Int.ofNat_le.mp h
    · intro tx htx
      rcases List.mem_cons.mp (insertIntoSortedArray_perm.mem_iff.mp htx) with rfl | htx
      · exact heq.symm
      · exact hown tx htx
  · exact hs nfa

theorem Dequeued.ordered (hs : Ordered store) (h : Dequeued store nfa amount matched store') :
    Ordered store' := by
  intro other
  by_cases hother : other = nfa
  · subst hother
    obtain ⟨hsorted, hown⟩ := hs other
    have hsublist := h.settled.remaining_sublist
    exact ⟨hsorted.sublist hsublist, fun tx htx => hown tx (hsublist.subset htx)⟩
  · rw [pendingOf, h.others other hother]
    exact hs other

theorem ordered_of_reachable (h : settling.Reachable TransitionSystem.anyStep store) :
    Ordered store := by
  apply h.invariant
  · rintro s rfl nfa
    exact ⟨List.Pairwise.nil, by intro tx htx; cases htx⟩
  · intro s action t hs _ hstep
    cases action with
    | addPending pending =>
      cases hstep
      exact addPendingSettleTx_ordered hs pending
    | settle nfa amount =>
      obtain ⟨⟨matched, store'⟩, hresult, rfl⟩ := Option.map_eq_some_iff.mp hstep
      cases hmatch : matchAndDequeueSettlement s nfa amount with
      | error fault =>
        rw [hmatch] at hresult
        cases hresult
      | ok result =>
        rw [hmatch] at hresult
        cases hresult
        exact (matchAndDequeueSettlement_ok hmatch).ordered hs

end Runs

section Example

/-- The `n`th transaction of an address, of this amount. -/
def pendingTx (n amount : Nat) : PendingTx where
  aux := { forwardingChannel := "channel-21", recipientAddress := "agoric16kv2g7snfc4q24" }
  blockHash := "0x80d7343e"
  blockNumber := n
  blockTimestamp := 0
  chainId := 1
  tx := { amount, forwardingAddress := "noble1x0ydg69dh6fqvr27x", sender := "0xc6b5c8f7" }
  txHash := "0x" ++ Nat.repr n
  status := .advanced

def storeOf (amounts : List Nat) : PendingSettleTxs :=
  amounts.zipIdx.foldl (fun store p => addPendingSettleTx store (pendingTx p.2 p.1)) ∅

theorem reachable_storeOf (amounts : List Nat) :
    settling.Reachable TransitionSystem.anyStep (storeOf amounts) := by
  unfold storeOf
  generalize amounts.zipIdx = entries
  have hfold : ∀ (entries : List (Nat × Nat)) (store : PendingSettleTxs),
      settling.Reachable TransitionSystem.anyStep store →
      settling.Reachable TransitionSystem.anyStep
        (entries.foldl (fun store p => addPendingSettleTx store (pendingTx p.2 p.1)) store) := by
    intro entries
    induction entries with
    | nil => exact fun _ h => h
    | cons p entries ih =>
      intro store h
      exact ih _ (.step h trivial (a := .addPending (pendingTx p.2 p.1)) rfl)
  exact hfold entries ∅ (.init rfl)

end Example

end AgoricSdk.FastUsdc
