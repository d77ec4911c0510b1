import AgoricSdk.Lib.LinkedList
import AgoricSdk.BundleInstall.Keeper

/-!
The list of pending installs. Its nodes thread the pending identifiers in
increasing order between the two ends that the state names. A new install goes
to the end of the list, and one leaves it from any place; neither meets a
missing node.
-/

namespace AgoricSdk.BundleInstall

open StateProgram LinkedList

/-- The neighbours that the stored nodes name. -/
def linksOf (nodes : Table Nat ChunkedArtifactNode) : Links := fun id =>
  (nodes.lookup id).map fun node => (node.prevId, node.nextId)

/-- The block in which an install started. -/
def startOf (nodes : Table Nat ChunkedArtifactNode) (id : Nat) : Option Context :=
  (nodes.lookup id).map fun node => ⟨node.startTimeUnix, node.startBlockHeight⟩

/-- The nodes thread these installs in the order of their identifiers. -/
structure ListHolds (state : State) (nodes : Table Nat ChunkedArtifactNode) (l : List Nat) :
    Prop where
  threads : Threads (linksOf nodes) l
  first : state.firstChunkedArtifactId = firstOf l
  last : state.lastChunkedArtifactId = lastOf l
  increasing : l.Pairwise (· < ·)
  bounded : ∀ id ∈ l, id ≤ state.nextChunkedArtifactId

theorem linksOf_eq_some {nodes : Table Nat ChunkedArtifactNode} {id prev next : Nat}
    (h : linksOf nodes id = some (prev, next)) :
    ∃ node, nodes.lookup id = some node ∧ node.prevId = prev ∧ node.nextId = next := by
  obtain ⟨node, hnode, hlink⟩ := Option.map_eq_some_iff.mp h
  exact ⟨node, hnode, congrArg Prod.fst hlink, congrArg Prod.snd hlink⟩

theorem ListHolds.lookup_isSome {state : State} {nodes : Table Nat ChunkedArtifactNode}
    {l : List Nat} (h : ListHolds state nodes l) {id : Nat} :
    (nodes.lookup id).isSome ↔ id ∈ l := by
  rw [← h.threads.isSome_iff, linksOf, Option.isSome_map]

theorem lookup_zero_of_threads {nodes : Table Nat ChunkedArtifactNode} {l : List Nat}
    (h : Threads (linksOf nodes) l) : nodes.lookup 0 = none := by
  have hz := h.absent 0 h.pos
  rwa [linksOf, Option.map_eq_none_iff] at hz

theorem listHolds_nil : ListHolds {} ∅ [] :=
  ⟨threads_nil, rfl, rfl, List.Pairwise.nil, fun _ h => by cases h⟩

section Unlink

/-- Change a node if it is there. -/
def relink (nodes : Table Nat ChunkedArtifactNode) (id : Nat)
    (mutate : ChunkedArtifactNode → ChunkedArtifactNode) : Table Nat ChunkedArtifactNode :=
  match nodes.lookup id with
  | none => nodes
  | some node => nodes.insert id (mutate node)

theorem lookup_relink (nodes : Table Nat ChunkedArtifactNode) (id k : Nat)
    (mutate : ChunkedArtifactNode → ChunkedArtifactNode) :
    (relink nodes id mutate).lookup k =
      if k = id then (nodes.lookup id).map mutate else nodes.lookup k := by
  unfold relink
  cases h : nodes.lookup id with
  | none =>
    by_cases heq : k = id
    · rw [if_pos heq, heq, h]
      rfl
    · rw [if_neg heq]
  | some node => exact Table.lookup_insert ..

theorem updateNode_run {s : KeeperState} {id : Nat} {op : String}
    {mutate : ChunkedArtifactNode → ChunkedArtifactNode} (h : (s.nodes.lookup id).isSome) :
    updateNode id op mutate s = .ok () { s with nodes := relink s.nodes id mutate } := by
  obtain ⟨node, hnode⟩ := Option.isSome_iff_exists.mp h
  have hf : fetch id s = .ok (some node) s := by rw [← hnode]; rfl
  rw [updateNode, bind_run hf, relink, hnode]
  rfl

theorem relink_of_none {nodes : Table Nat ChunkedArtifactNode} {id : Nat}
    {mutate : ChunkedArtifactNode → ChunkedArtifactNode} (h : nodes.lookup id = none) :
    relink nodes id mutate = nodes := by
  rw [relink, h]

/-- The nodes once a victim's neighbours point past it and it is gone. -/
def unlinked (nodes : Table Nat ChunkedArtifactNode) (id prev next : Nat) :
    Table Nat ChunkedArtifactNode :=
  (relink (relink nodes prev fun node => { node with nextId := next }) next
    fun node => { node with prevId := prev }).erase id

variable {s : KeeperState} {xs ys : List Nat} {id : Nat}

theorem ListHolds.victim (h : ListHolds s.state s.nodes (xs ++ id :: ys)) :
    ∃ victim, s.nodes.lookup id = some victim ∧ victim.prevId = lastOf xs ∧
      victim.nextId = firstOf ys := linksOf_eq_some (h.threads.link xs id ys rfl)

theorem prev_isSome (h : ListHolds s.state s.nodes (xs ++ id :: ys)) (hp : lastOf xs ≠ 0) :
    (s.nodes.lookup (lastOf xs)).isSome := by
  apply h.lookup_isSome.mpr
  have hne : xs ≠ [] := fun he => hp (by rw [he, lastOf_nil])
  exact List.mem_append_left _ (lastOf_mem hne)

theorem next_isSome (h : ListHolds s.state s.nodes (xs ++ id :: ys)) (hn : firstOf ys ≠ 0) :
    (s.nodes.lookup (firstOf ys)).isSome := by
  apply h.lookup_isSome.mpr
  have hne : ys ≠ [] := fun he => hn (by rw [he, firstOf_nil])
  exact List.mem_append_right _ (List.mem_cons_of_mem _ (firstOf_mem hne))

/-- The ends of the list once the victim is gone. -/
def withoutEnds (state : State) (prev next : Nat) : State :=
  { state with
    firstChunkedArtifactId := if prev = 0 then next else state.firstChunkedArtifactId
    lastChunkedArtifactId := if next = 0 then prev else state.lastChunkedArtifactId }

theorem updateNeighbours_run {t : KeeperState} {prev next : Nat} (op op' : String)
    (toNext toPrev : ChunkedArtifactNode → ChunkedArtifactNode)
    (hzero : t.nodes.lookup 0 = none) (hprev : prev ≠ 0 → (t.nodes.lookup prev).isSome)
    (hnext : next ≠ 0 → (t.nodes.lookup next).isSome) :
    (if prev ≠ 0 then do
        updateNode prev op toNext
        if next ≠ 0 then updateNode next op' toPrev else pure ()
      else if next ≠ 0 then updateNode next op' toPrev else pure () : Keeper Unit) t =
      .ok () { t with nodes := relink (relink t.nodes prev toNext) next toPrev } := by
  have hsome : ∀ k, ((relink t.nodes prev toNext).lookup k).isSome = (t.nodes.lookup k).isSome := by
    intro k
    rw [lookup_relink]
    by_cases hk : k = prev
    · rw [if_pos hk, hk, Option.isSome_map]
    · rw [if_neg hk]
  have hzero' : (relink t.nodes prev toNext).lookup 0 = none := by
    rw [← Option.not_isSome_iff_eq_none, hsome, hzero]
    exact Bool.false_ne_true
  by_cases hp : prev = 0
  · have hrelink : relink t.nodes prev toNext = t.nodes := relink_of_none (hp ▸ hzero)
    rw [if_neg (not_not.mpr hp), hrelink]
    by_cases hn : next = 0
    · rw [if_neg (not_not.mpr hn), hn, relink_of_none hzero]
      rfl
    · rw [if_pos hn, updateNode_run (hnext hn)]
  · rw [if_pos hp, bind_run (updateNode_run (hprev hp))]
    by_cases hn : next = 0
    · rw [if_neg (not_not.mpr hn), hn, relink_of_none hzero']
      rfl
    · have hnext' : ((relink t.nodes prev toNext).lookup next).isSome := by
        rw [hsome]
        exact hnext hn
      rw [if_pos hn, updateNode_run hnext']

theorem removeChunkedArtifactNode_run (h : ListHolds s.state s.nodes (xs ++ id :: ys)) :
    removeChunkedArtifactNode id s = .ok ()
      { s with
        nodes := unlinked s.nodes id (lastOf xs) (firstOf ys)
        state := withoutEnds s.state (lastOf xs) (firstOf ys) } := by
  obtain ⟨victim, hvictim, hprev, hnext⟩ := h.victim
  have hfetch : fetch id s = .ok (some victim) s := by rw [← hvictim]; rfl
  have hunlink : unlink victim (fun first last => do
      let state ← getState
      setState { state with
        firstChunkedArtifactId := first.getD state.firstChunkedArtifactId
        lastChunkedArtifactId := last.getD state.lastChunkedArtifactId }) s = .ok ()
      { s with
        nodes := relink (relink s.nodes (lastOf xs) fun node => { node with nextId := firstOf ys })
          (firstOf ys) fun node => { node with prevId := lastOf xs }
        state := withoutEnds s.state (lastOf xs) (firstOf ys) } := by
    have hrun := fun t : KeeperState => fun ht : t.nodes = s.nodes =>
      updateNeighbours_run "unlink prev" "unlink next"
        (fun node => { node with nextId := firstOf ys })
        (fun node => { node with prevId := lastOf xs })
        (ht ▸ lookup_zero_of_threads h.threads) (ht ▸ prev_isSome h) (ht ▸ next_isSome h)
    rw [unlink, hprev, hnext]
    by_cases hends : lastOf xs = 0 ∨ firstOf ys = 0
    · have hset : ({ s.state with
          firstChunkedArtifactId := (if lastOf xs = 0 then some (firstOf ys) else none).getD
            s.state.firstChunkedArtifactId
          lastChunkedArtifactId := (if firstOf ys = 0 then some (lastOf xs) else none).getD
            s.state.lastChunkedArtifactId } : State) =
          withoutEnds s.state (lastOf xs) (firstOf ys) := by
        unfold withoutEnds
        split <;> split <;> rfl
      rw [if_pos hends, ← hset]
      exact (bind_run rfl).trans (hrun _ rfl)
    · have hsame : withoutEnds s.state (lastOf xs) (firstOf ys) = s.state := by
        unfold withoutEnds
        rw [if_neg fun hp => hends (.inl hp), if_neg fun hn => hends (.inr hn)]
      rw [if_neg hends, hsame]
      exact hrun s rfl
  rw [removeChunkedArtifactNode, bind_run hfetch]
  exact bind_run hunlink

theorem lookup_unlinked (nodes : Table Nat ChunkedArtifactNode) (id prev next k : Nat) :
    (unlinked nodes id prev next).lookup k =
      if k = id then none
      else if k = next then
        ((relink nodes prev fun node => { node with nextId := next }).lookup next).map
          fun node => { node with prevId := prev }
      else if k = prev then (nodes.lookup prev).map fun node => { node with nextId := next }
      else nodes.lookup k := by
  rw [unlinked, Table.lookup_erase, lookup_relink, lookup_relink, lookup_relink]

theorem startOf_relink (nodes : Table Nat ChunkedArtifactNode) (id k : Nat)
    {mutate : ChunkedArtifactNode → ChunkedArtifactNode}
    (h : ∀ node, (mutate node).startTimeUnix = node.startTimeUnix ∧
      (mutate node).startBlockHeight = node.startBlockHeight := by exact fun _ => ⟨rfl, rfl⟩) :
    startOf (relink nodes id mutate) k = startOf nodes k := by
  rw [startOf, startOf, lookup_relink]
  by_cases hk : k = id
  · rw [if_pos hk, hk, Option.map_map]
    refine congrArg (fun f => Option.map f (nodes.lookup id)) (funext fun node => ?_)
    simp only [Function.comp_apply, (h node).1, (h node).2]
  · rw [if_neg hk]

theorem startOf_unlinked (nodes : Table Nat ChunkedArtifactNode) (id prev next k : Nat) :
    startOf (unlinked nodes id prev next) k = if k = id then none else startOf nodes k := by
  have hrelink : startOf (relink (relink nodes prev fun node => { node with nextId := next }) next
      fun node => { node with prevId := prev }) k = startOf nodes k := by
    rw [startOf_relink, startOf_relink]
  by_cases hk : k = id
  · rw [if_pos hk, startOf, unlinked, Table.lookup_erase, if_pos hk]
    rfl
  · rw [if_neg hk, ← hrelink, startOf, unlinked, Table.lookup_erase, if_neg hk]
    rfl

theorem threads_unlinked {nodes : Table Nat ChunkedArtifactNode}
    (h : Threads (linksOf nodes) (xs ++ id :: ys)) :
    Threads (linksOf (unlinked nodes id (lastOf xs) (firstOf ys))) (xs ++ ys) := by
  have hnd := h.nodup
  have hpos := h.pos
  have hzero : nodes.lookup 0 = none := lookup_zero_of_threads h
  rw [List.nodup_append] at hnd
  obtain ⟨-, hndys, hdisj⟩ := hnd
  have hid : id ∉ ys := (List.nodup_cons.mp hndys).1
  apply Threads.unlink h
  · rw [linksOf, lookup_unlinked, if_pos rfl]
    rfl
  · rintro as p rfl
    have hpid : p ≠ id := hdisj p (by simp) id (List.mem_cons_self ..)
    have hpn : p ≠ firstOf ys := by
      intro he
      by_cases hys : ys = []
      · rw [hys, firstOf_nil] at he
        exact hpos (by simp [he])
      · exact hdisj p (by simp) p (List.mem_cons_of_mem _ (he ▸ firstOf_mem hys)) rfl
    obtain ⟨node, hnode, hprev, -⟩ := linksOf_eq_some (h.link as p (id :: ys) (by simp))
    rw [linksOf, lookup_unlinked, if_neg hpid, if_neg hpn, lastOf_append_singleton, if_pos rfl,
      hnode, Option.map_some, Option.map_some, hprev]
  · rintro n bs rfl
    have hnid : n ≠ id := fun he => hid (he ▸ List.mem_cons_self ..)
    have hnp : n ≠ lastOf xs := by
      intro he
      by_cases hxs : xs = []
      · rw [hxs, lastOf_nil] at he
        exact hpos (by simp [he])
      · exact hdisj n (he ▸ lastOf_mem hxs) n (by simp) rfl
    obtain ⟨node, hnode, -, hnext⟩ := linksOf_eq_some (h.link (xs ++ [id]) n bs (by simp))
    rw [linksOf, lookup_unlinked, if_neg hnid, firstOf_cons, if_pos rfl, lookup_relink,
      if_neg hnp, hnode, Option.map_some, Option.map_some, hnext]
  · intro k hk hother
    rw [linksOf, linksOf, lookup_unlinked, if_neg hk, lookup_relink]
    obtain rfl | ⟨hkp, hkn⟩ := hother
    · by_cases hn : 0 = firstOf ys
      · rw [if_pos hn, ← hn]
        by_cases hp : 0 = lastOf xs
        · rw [if_pos hp, ← hp, hzero]
          rfl
        · rw [if_neg hp, hzero]
          rfl
      · rw [if_neg hn]
        by_cases hp : 0 = lastOf xs
        · rw [if_pos hp, ← hp, hzero]
          rfl
        · rw [if_neg hp]
    · rw [if_neg hkn, if_neg hkp]

theorem ListHolds.unlink {state : State} {nodes : Table Nat ChunkedArtifactNode}
    (h : ListHolds state nodes (xs ++ id :: ys)) :
    ListHolds (withoutEnds state (lastOf xs) (firstOf ys))
      (unlinked nodes id (lastOf xs) (firstOf ys)) (xs ++ ys) := by
  have hpos := h.threads.pos
  simp only [List.mem_append, List.mem_cons, not_or] at hpos
  constructor
  case threads => exact threads_unlinked h.threads
  case first =>
    by_cases hxs : xs = []
    · simp [withoutEnds, hxs]
    · have hp : lastOf xs ≠ 0 := fun he => hxs ((lastOf_eq_zero_iff hpos.1).mp he)
      rw [withoutEnds, if_neg hp, h.first, firstOf_append hxs, firstOf_append hxs]
  case last =>
    by_cases hys : ys = []
    · simp [withoutEnds, hys]
    · have hn : firstOf ys ≠ 0 := firstOf_ne_zero hpos.2.2 hys
      rw [withoutEnds, if_neg hn, h.last, lastOf_append hys, ← lastOf_append hys (xs ++ [id])]
      simp
  case increasing =>
    exact h.increasing.sublist
      ((List.append_sublist_append_left xs).mpr (List.sublist_cons_self id ys))
  case bounded =>
    intro k hk
    apply h.bounded
    simp only [List.mem_append, List.mem_cons] at hk ⊢
    exact hk.imp_right .inr

end Unlink

section Add

variable {s : KeeperState} {l : List Nat}

/-- The identifier that the next install gets. -/
def newId (state : State) : Nat :=
  max state.nextChunkedArtifactId state.lastChunkedArtifactId + 1

/-- The node of an install added at the end of the list. -/
def newNode (ctx : Context) (state : State) : ChunkedArtifactNode where
  chunkedArtifactId := newId state
  prevId := state.lastChunkedArtifactId
  startTimeUnix := ctx.blockTime
  startBlockHeight := ctx.blockHeight

/-- The nodes once an install is added at the end of the list. -/
def extended (ctx : Context) (state : State) (nodes : Table Nat ChunkedArtifactNode) :
    Table Nat ChunkedArtifactNode :=
  (relink nodes state.lastChunkedArtifactId fun node => { node with nextId := newId state }).insert
    (newId state) (newNode ctx state)

/-- The ends of the list once an install is added. -/
def extendedEnds (state : State) : State where
  firstChunkedArtifactId :=
    if state.firstChunkedArtifactId = 0 then newId state else state.firstChunkedArtifactId
  lastChunkedArtifactId := newId state
  nextChunkedArtifactId := newId state

theorem addPendingBundleInstall_run (h : ListHolds s.state s.nodes l) (ctx : Context)
    (msg : MsgInstallBundle) :
    addPendingBundleInstall ctx msg s = .ok (newId s.state)
      { s with
        state := extendedEnds s.state
        pending := s.pending.insert (newId s.state) msg
        nodes := extended ctx s.state s.nodes } := by
  have hfirst := h.first
  have hlast := h.last
  rw [addPendingBundleInstall]
  refine (bind_run rfl).trans ?_
  by_cases hl : l = []
  · have hf0 : s.state.firstChunkedArtifactId = 0 := by rw [hfirst, hl, firstOf_nil]
    have hl0 : s.state.lastChunkedArtifactId = 0 := by rw [hlast, hl, lastOf_nil]
    have hextended : extended ctx s.state s.nodes = s.nodes.insert (newId s.state)
        { chunkedArtifactId := newId s.state
          startTimeUnix := ctx.blockTime
          startBlockHeight := ctx.blockHeight } := by
      have hnone : s.nodes.lookup s.state.lastChunkedArtifactId = none := by
        rw [hl0]
        exact lookup_zero_of_threads h.threads
      rw [extended, relink_of_none hnone, newNode, hl0]
    rw [if_pos hf0, if_neg (not_not.mpr hl0), extendedEnds, if_pos hf0, hextended]
    rfl
  · have hf0 : s.state.firstChunkedArtifactId ≠ 0 := by
      rw [hfirst]
      exact firstOf_ne_zero h.threads.pos hl
    have hl0 : s.state.lastChunkedArtifactId ≠ 0 := by
      rw [hlast]
      exact fun he => hl ((lastOf_eq_zero_iff h.threads.pos).mp he)
    have hnode : (s.nodes.lookup s.state.lastChunkedArtifactId).isSome := by
      rw [hlast]
      exact h.lookup_isSome.mpr (lastOf_mem hl)
    rw [if_neg hf0, if_neg hl0, extendedEnds, if_neg hf0]
    exact (bind_run (updateNode_run hnode)).trans rfl

theorem lookup_extended (ctx : Context) (state : State) (nodes : Table Nat ChunkedArtifactNode)
    (k : Nat) : (extended ctx state nodes).lookup k =
      if k = newId state then some (newNode ctx state)
      else if k = state.lastChunkedArtifactId then
        (nodes.lookup state.lastChunkedArtifactId).map fun node =>
          { node with nextId := newId state }
      else nodes.lookup k := by
  rw [extended, Table.lookup_insert, lookup_relink]

theorem startOf_extended (ctx : Context) (state : State) (nodes : Table Nat ChunkedArtifactNode)
    (k : Nat) : startOf (extended ctx state nodes) k =
      if k = newId state then some ctx else startOf nodes k := by
  have hrelink : startOf (relink nodes state.lastChunkedArtifactId fun node =>
      { node with nextId := newId state }) k = startOf nodes k := by
    rw [startOf_relink]
  by_cases hk : k = newId state
  · rw [if_pos hk, startOf, extended, Table.lookup_insert, if_pos hk]
    rfl
  · rw [if_neg hk, ← hrelink, startOf, extended, Table.lookup_insert, if_neg hk]
    rfl

variable {state : State} {nodes : Table Nat ChunkedArtifactNode}

theorem ListHolds.lt_newId (h : ListHolds state nodes l) {id : Nat} (hid : id ∈ l) :
    id < newId state := by
  have := h.bounded id hid
  unfold newId
  omega

theorem ListHolds.newId_notMem (h : ListHolds state nodes l) : newId state ∉ l := fun hm =>
  Nat.lt_irrefl _ (h.lt_newId hm)

theorem ListHolds.extend (h : ListHolds state nodes l) (ctx : Context) :
    ListHolds (extendedEnds state) (extended ctx state nodes) (l ++ [newId state]) := by
  have hpos : newId state ≠ 0 := Nat.succ_ne_zero _
  have hnew := h.newId_notMem
  constructor
  case threads =>
    apply h.threads.append hnew hpos
    · rw [linksOf, lookup_extended, if_pos rfl, ← h.last]
      rfl
    · rintro xs last rfl
      have hlast : state.lastChunkedArtifactId = last := by rw [h.last, lastOf_append_singleton]
      have hne : last ≠ newId state := fun he => hnew (by simp [he])
      obtain ⟨node, hnode, hprev, -⟩ := linksOf_eq_some (h.threads.link xs last [] rfl)
      rw [linksOf, lookup_extended, if_neg hne, hlast, if_pos rfl, hnode, Option.map_some,
        Option.map_some, hprev]
    · rintro k hk hother
      rw [linksOf, linksOf, lookup_extended, if_neg hk]
      by_cases hl : k = state.lastChunkedArtifactId
      · obtain rfl | hother := hother
        · rw [if_pos hl, ← hl, lookup_zero_of_threads h.threads]
          rfl
        · exact absurd (hl.trans h.last) hother
      · rw [if_neg hl]
  case first =>
    by_cases hl : l = []
    · have hf : state.firstChunkedArtifactId = 0 := by rw [h.first, hl, firstOf_nil]
      rw [extendedEnds, if_pos hf, hl]
      rfl
    · have hf : state.firstChunkedArtifactId ≠ 0 := by
        rw [h.first]
        exact firstOf_ne_zero h.threads.pos hl
      rw [extendedEnds, if_neg hf, h.first, firstOf_append hl]
  case last => rw [lastOf_append_singleton, extendedEnds]
  case increasing =>
    rw [List.pairwise_append]
    exact ⟨h.increasing, List.pairwise_singleton .., fun a ha b hb => by
      rw [List.mem_singleton.mp hb]
      exact h.lt_newId ha⟩
  case bounded =>
    intro id hid
    rw [List.mem_append, List.mem_singleton] at hid
    obtain hid | rfl := hid
    · exact (h.lt_newId hid).le
    · exact Nat.le_refl _

end Add

end AgoricSdk.BundleInstall
