import AgoricSdk.BundleInstall.PendingList

/-!
The pending installs with their chunks. An install keeps data exactly for the
chunks that it marks as received, and the data matches what it announced.
Removing an install removes its message, its chunks and its node; a pruning pass
removes the installs that have expired and no others, since those are at the
front of the list.
-/

namespace AgoricSdk.BundleInstall

open StateProgram LinkedList

/-- The chunks that a message announces. -/
def MsgInstallBundle.chunks (msg : MsgInstallBundle) : List ChunkInfo :=
  match msg.chunkedArtifact with
  | none => []
  | some ca => ca.chunks

/-- A chunk of a pending install. -/
def chunkOf (pending : Table Nat MsgInstallBundle) (id i : Nat) : Option ChunkInfo :=
  (pending.lookup id).bind fun msg => msg.chunks[i]?

/-- The data has the size and the hash that were announced. -/
structure Verified (sha512Sum : Bytes → Bytes) (chunk : ChunkInfo) (data : Bytes) : Prop where
  nonempty : data ≠ []
  size : chunk.sizeBytes = data.length
  hash : decodeHex chunk.sha512 = some (sha512Sum data)

/-- A chunk is received with its data, or in flight without. -/
def ChunkStored (sha512Sum : Bytes → Bytes) : Option ChunkInfo → Option Bytes → Prop
  | some chunk, some data => chunk.state = .received ∧ Verified sha512Sum chunk data
  | some chunk, none => chunk.state = .inFlight
  | none, some _ => False
  | none, none => True

/-- One block is not after another. -/
structure Context.Le (a b : Context) : Prop where
  time : a.blockTime ≤ b.blockTime
  height : a.blockHeight ≤ b.blockHeight

/-- The installs of the list started in its order and not after the current block. -/
structure Started (nodes : Table Nat ChunkedArtifactNode) (now : Context) : Prop where
  ordered : ∀ a b start start', a ≤ b → startOf nodes a = some start →
    startOf nodes b = some start' → start.Le start'
  past : ∀ id start, startOf nodes id = some start → start.Le now

structure WellFormed (sha512Sum : Bytes → Bytes) (now : Context) (s : KeeperState)
    (l : List Nat) : Prop where
  list : ListHolds s.state s.nodes l
  pending : ∀ id, (s.pending.lookup id).isSome ↔ id ∈ l
  chunks : ∀ id i, ChunkStored sha512Sum (chunkOf s.pending id i) (s.chunkData.lookup (id, i))
  started : Started s.nodes now

section Remove

/-- The chunk data without the first chunks of an install. -/
def eraseChunks (chunkData : Table (Nat × Nat) Bytes) (id : Nat) (is : List Nat) :
    Table (Nat × Nat) Bytes :=
  is.foldl (fun data i => data.erase (id, i)) chunkData

theorem lookup_eraseChunks (chunkData : Table (Nat × Nat) Bytes) (id : Nat) (is : List Nat)
    (k i : Nat) : (eraseChunks chunkData id is).lookup (k, i) =
      if k = id ∧ i ∈ is then none else chunkData.lookup (k, i) := by
  induction is generalizing chunkData with
  | nil => simp [eraseChunks]
  | cons j is ih =>
    have hstep : eraseChunks chunkData id (j :: is) = eraseChunks (chunkData.erase (id, j)) id is :=
      rfl
    rw [hstep, ih, Table.lookup_erase]
    by_cases hk : k = id
    · by_cases hi : i ∈ is
      · simp [hk, hi]
      · by_cases hj : i = j <;> simp [hk, hi, hj]
    · simp [hk]

theorem eraseChunks_run (s : KeeperState) (id : Nat) (is : List Nat) :
    is.forM (fun i => setPendingChunkData id i []) s =
      .ok () { s with chunkData := eraseChunks s.chunkData id is } := by
  induction is generalizing s with
  | nil => rfl
  | cons i is ih =>
    have hone : setPendingChunkData id i [] s =
        .ok () { s with chunkData := s.chunkData.erase (id, i) } := rfl
    change (setPendingChunkData id i [] >>= fun _ => _) s = _
    rw [bind_run hone]
    exact ih _

/-- The state without an install, whose neighbours are read off its node. -/
def removed (s : KeeperState) (id : Nat) : KeeperState :=
  let node := (s.nodes.lookup id).getD {}
  let msg := (s.pending.lookup id).getD {}
  { s with
    state := withoutEnds s.state node.prevId node.nextId
    pending := s.pending.erase id
    nodes := unlinked s.nodes id node.prevId node.nextId
    chunkData := eraseChunks s.chunkData id (List.range msg.chunks.length) }

variable {s : KeeperState} {id : Nat} {l : List Nat}

theorem setPendingBundleInstall_none_run (h : ListHolds s.state s.nodes l) (hid : id ∈ l) :
    setPendingBundleInstall id none s = .ok () (removed s id) := by
  obtain ⟨xs, ys, rfl⟩ := List.append_of_mem hid
  obtain ⟨node, hnode, hprev, hnext⟩ := h.victim
  rw [removed, hnode, Option.getD_some, hprev, hnext, setPendingBundleInstall]
  refine (bind_run rfl).trans ?_
  have hremove := fun data : Table (Nat × Nat) Bytes => removeChunkedArtifactNode_run
    (s := { s with chunkData := data, pending := s.pending.erase id }) h
  unfold MsgInstallBundle.chunks
  dsimp only
  cases ((s.pending.lookup id).getD {}).chunkedArtifact with
  | none => exact (bind_run rfl).trans ((bind_run rfl).trans (hremove _))
  | some ca =>
    exact (bind_run (eraseChunks_run s id (List.range ca.chunks.length))).trans
      ((bind_run rfl).trans (hremove _))

theorem setPendingBundleInstall_none_missing (hpending : s.pending.lookup id = none)
    (hnode : s.nodes.lookup id = none) :
    ∃ t, setPendingBundleInstall id none s = .error (.missingNode id "unlink") t := by
  have hfetch : fetch id { s with pending := s.pending.erase id } =
      .ok none { s with pending := s.pending.erase id } := by
    rw [← hnode]
    rfl
  refine ⟨{ s with pending := s.pending.erase id }, ?_⟩
  have hremove : removeChunkedArtifactNode id { s with pending := s.pending.erase id } =
      .error (.missingNode id "unlink") { s with pending := s.pending.erase id } := by
    rw [removeChunkedArtifactNode, bind_run hfetch]
    rfl
  rw [setPendingBundleInstall]
  refine (bind_run get_run).trans ?_
  rw [hpending]
  exact (bind_run rfl).trans ((bind_run rfl).trans hremove)

theorem Started.unlinked {nodes : Table Nat ChunkedArtifactNode} {now : Context}
    (h : Started nodes now) (id prev next : Nat) :
    Started (BundleInstall.unlinked nodes id prev next) now := by
  have hkeep : ∀ k start, startOf (BundleInstall.unlinked nodes id prev next) k = some start →
      startOf nodes k = some start := by
    intro k start hk
    rw [startOf_unlinked] at hk
    split at hk
    · cases hk
    · exact hk
  exact ⟨fun a b start start' hab ha hb => h.ordered a b start start' hab (hkeep _ _ ha)
    (hkeep _ _ hb), fun k start hk => h.past k start (hkeep _ _ hk)⟩

theorem chunkOf_erase (pending : Table Nat MsgInstallBundle) (id k i : Nat) :
    chunkOf (pending.erase id) k i = if k = id then none else chunkOf pending k i := by
  rw [chunkOf, Table.lookup_erase]
  split <;> rfl

theorem WellFormed.remove {sha512Sum : Bytes → Bytes} {now : Context} {xs ys : List Nat}
    (h : WellFormed sha512Sum now s (xs ++ id :: ys)) :
    WellFormed sha512Sum now (removed s id) (xs ++ ys) := by
  obtain ⟨node, hnode, hprev, hnext⟩ := h.list.victim
  have hnd := h.list.threads.nodup
  rw [List.nodup_middle, List.nodup_cons] at hnd
  constructor
  case list =>
    rw [removed, hnode, Option.getD_some, hprev, hnext]
    exact h.list.unlink
  case pending =>
    intro k
    change ((s.pending.erase id).lookup k).isSome ↔ _
    rw [Table.lookup_erase]
    by_cases hk : k = id
    · rw [if_pos hk, hk]
      exact ⟨fun hs => absurd hs Bool.false_ne_true, fun hm => absurd hm hnd.1⟩
    · rw [if_neg hk, h.pending]
      simp [hk]
  case chunks =>
    intro k i
    change ChunkStored _ (chunkOf (s.pending.erase id) k i)
      ((eraseChunks s.chunkData id _).lookup (k, i))
    rw [chunkOf_erase, lookup_eraseChunks]
    by_cases hk : k = id
    · obtain ⟨msg, hmsg⟩ := Option.isSome_iff_exists.mp
        ((h.pending id).mpr (by simp))
      have hlookup : (if k = id ∧ i ∈ List.range ((s.pending.lookup id).getD {}).chunks.length
          then none else s.chunkData.lookup (k, i)) = none := by
        by_cases hi : i < msg.chunks.length
        · exact if_pos ⟨hk, by rw [hmsg]; exact List.mem_range.mpr hi⟩
        · have hchunk := h.chunks id i
          have hnone : chunkOf s.pending id i = none := by
            rw [chunkOf, hmsg, Option.bind_some, List.getElem?_eq_none (by omega)]
          rw [hnone] at hchunk
          have hno : s.chunkData.lookup (id, i) = none := by
            cases hdata : s.chunkData.lookup (id, i) with
            | none => rfl
            | some data => rw [hdata] at hchunk; exact hchunk.elim
          rw [hk, hno, ite_self]
      rw [if_pos hk, hlookup]
      exact trivial
    · rw [if_neg hk, if_neg fun hc => hk hc.1]
      exact h.chunks k i
  case started => exact h.started.unlinked _ _ _

theorem WellFormed.removeFirst {sha512Sum : Bytes → Bytes} {now : Context}
    (h : WellFormed sha512Sum now s (id :: l)) : WellFormed sha512Sum now (removed s id) l :=
  (show WellFormed sha512Sum now s ([] ++ id :: l) from h).remove

end Remove

section Prune

variable {s : KeeperState} {l : List Nat}

/-- Whether an install has passed its deadline. -/
def expired (params : Params) (ctx : Context) (s : KeeperState) (id : Nat) : Bool :=
  match s.nodes.lookup id with
  | none => false
  | some node => !alive params ctx node

theorem alive_mono {params : Params} {ctx : Context} {a b : ChunkedArtifactNode}
    (hle : Context.Le ⟨a.startTimeUnix, a.startBlockHeight⟩ ⟨b.startTimeUnix, b.startBlockHeight⟩)
    (ha : alive params ctx a = true) : alive params ctx b = true := by
  have htime := hle.time
  have hheight := hle.height
  simp only [alive, Bool.and_eq_true, Bool.or_eq_true, decide_eq_true_eq] at ha htime hheight ⊢
  omega

theorem expired_congr {params : Params} {ctx : Context} {s t : KeeperState} {id : Nat}
    (h : startOf t.nodes id = startOf s.nodes id) :
    expired params ctx t id = expired params ctx s id := by
  unfold expired startOf at *
  cases hs : s.nodes.lookup id <;> cases ht : t.nodes.lookup id <;> rw [hs, ht] at h
  case none.some => cases h
  case some.none => cases h
  case some.some a b =>
    obtain ⟨htime, hheight⟩ := Context.mk.inj (Option.some.inj h)
    simp only [alive, htime, hheight]

section Steps

variable {params : Params} {ctx : Context} {state : State} {fuel : Nat}

theorem pruneLoop_empty (h : state.firstChunkedArtifactId = 0) :
    pruneLoop params ctx (fuel + 1) state s = .ok state s := by
  rw [pruneLoop, if_pos h]
  rfl

variable {node : ChunkedArtifactNode}

theorem pruneLoop_alive (h : state.firstChunkedArtifactId ≠ 0)
    (hnode : s.nodes.lookup state.firstChunkedArtifactId = some node)
    (halive : alive params ctx node = true) :
    pruneLoop params ctx (fuel + 1) state s = .ok state s := by
  rw [pruneLoop, if_neg h]
  refine (bind_run get_run).trans ?_
  rw [hnode, Option.getD_some, if_pos halive]
  rfl

theorem pruneLoop_dead {t : KeeperState} (h : state.firstChunkedArtifactId ≠ 0)
    (hnode : s.nodes.lookup state.firstChunkedArtifactId = some node)
    (hdead : alive params ctx node = false)
    (hrun : setPendingBundleInstall state.firstChunkedArtifactId none s = .ok () t) :
    pruneLoop params ctx (fuel + 1) state s =
      pruneLoop params ctx fuel (withoutEnds state 0 node.nextId) t := by
  rw [pruneLoop, if_neg h]
  refine (bind_run get_run).trans ?_
  rw [hnode, Option.getD_some, if_neg (by rw [hdead]; exact Bool.false_ne_true)]
  exact bind_run hrun

end Steps

theorem pruneLoop_run {sha512Sum : Bytes → Bytes} {now : Context} (params : Params) (ctx : Context)
    {fuel : Nat}
    (h : WellFormed sha512Sum now s l) (hfuel : l.length < fuel) :
    ∃ dead rest, l = dead ++ rest ∧ (∀ id ∈ dead, expired params ctx s id = true) ∧
      (∀ id, rest.head? = some id → expired params ctx s id = false) ∧
      pruneLoop params ctx fuel s.state s =
        .ok (dead.foldl removed s).state (dead.foldl removed s) := by
  induction l generalizing s fuel with
  | nil =>
    obtain ⟨fuel, rfl⟩ : ∃ n, fuel = n + 1 := ⟨fuel - 1, by omega⟩
    exact ⟨[], [], rfl, by simp, by simp, pruneLoop_empty h.list.first⟩
  | cons id l ih =>
    obtain ⟨fuel, rfl⟩ : ∃ n, fuel = n + 1 := ⟨fuel - 1, by omega⟩
    have hfirst : s.state.firstChunkedArtifactId = id := h.list.first
    have hid : s.state.firstChunkedArtifactId ≠ 0 := by
      rw [hfirst]
      rintro rfl
      exact h.list.threads.pos (List.mem_cons_self ..)
    obtain ⟨node, hnode, hprev, -⟩ := (show ListHolds s.state s.nodes ([] ++ id :: l) from h.list).victim
    have hfound : s.nodes.lookup s.state.firstChunkedArtifactId = some node := by
      rw [hfirst, hnode]
    have hexpired : expired params ctx s id = !alive params ctx node := by rw [expired, hnode]
    cases halive : alive params ctx node with
    | true =>
      refine ⟨[], id :: l, rfl, by simp, ?_, pruneLoop_alive hid hfound halive⟩
      rintro k hk
      obtain rfl := Option.some.inj hk
      rw [hexpired, halive]
      rfl
    | false =>
      have hwf : WellFormed sha512Sum now (removed s id) l := h.removeFirst
      have hnotMem : id ∉ l := (List.nodup_cons.mp h.list.threads.nodup).1
      have hkeep : ∀ k ∈ l, expired params ctx (removed s id) k = expired params ctx s k := by
        intro k hk
        apply expired_congr
        change startOf (unlinked s.nodes id _ _) k = _
        rw [startOf_unlinked, if_neg fun he : k = id => hnotMem (he ▸ hk)]
      obtain ⟨dead, rest, rfl, hdead, hrest, hrun⟩ := ih hwf (Nat.lt_of_succ_lt_succ hfuel)
      refine ⟨id :: dead, rest, rfl, ?_, ?_, ?_⟩
      · intro k hk
        rcases List.mem_cons.mp hk with rfl | hk
        · rw [hexpired, halive]
          rfl
        · rw [← hkeep k (List.mem_append_left _ hk)]
          exact hdead k hk
      · intro k hk
        rw [← hkeep k (List.mem_append_right _ (List.mem_of_mem_head? hk))]
        exact hrest k hk
      · have hremove := setPendingBundleInstall_none_run h.list (List.mem_cons_self ..)
        have hstate : withoutEnds s.state 0 node.nextId = (removed s id).state := by
          change _ = withoutEnds s.state _ _
          rw [hnode, Option.getD_some, hprev]
          rfl
        rw [← hfirst] at hremove
        rw [pruneLoop_dead hid hfound halive hremove, hstate, hfirst]
        exact hrun

theorem WellFormed.expired_sorted {sha512Sum : Bytes → Bytes} {now ctx : Context}
    {params : Params} (h : WellFormed sha512Sum now s l) {a b : Nat} (ha : a ∈ l) (hab : a ≤ b)
    (hlive : expired params ctx s a = false) : expired params ctx s b = false := by
  obtain ⟨node, hnode⟩ := Option.isSome_iff_exists.mp (h.list.lookup_isSome.mpr ha)
  cases hb : s.nodes.lookup b with
  | none => rw [expired, hb]
  | some node' =>
    have hle := h.started.ordered a b _ _ hab (congrArg (Option.map _) hnode)
      (congrArg (Option.map _) hb)
    rw [expired, hnode, Bool.not_eq_false'] at hlive
    rw [expired, hb]
    exact congrArg not (alive_mono hle hlive)

theorem WellFormed.removeAll {sha512Sum : Bytes → Bytes} {now : Context} {dead rest : List Nat}
    (h : WellFormed sha512Sum now s (dead ++ rest)) :
    WellFormed sha512Sum now (dead.foldl removed s) rest := by
  induction dead generalizing s with
  | nil => exact h
  | cons id dead ih => exact ih h.removeFirst

theorem lookup_removeAll (s : KeeperState) (dead : List Nat) (id : Nat) :
    (dead.foldl removed s).pending.lookup id =
      if id ∈ dead then none else s.pending.lookup id := by
  induction dead generalizing s with
  | nil => rfl
  | cons k dead ih =>
    have hone : (removed s k).pending.lookup id = if id = k then none else s.pending.lookup id :=
      Table.lookup_erase ..
    rw [List.foldl_cons, ih, hone]
    by_cases hk : id = k <;> by_cases hd : id ∈ dead <;> simp [hk, hd]

theorem ListHolds.length_le {state : State} {nodes : Table Nat ChunkedArtifactNode}
    (h : ListHolds state nodes l) : l.length ≤ nodes.size := by
  have hsub : l ⊆ nodes.keys := by
    intro id hid
    exact Table.mem_keys_iff.mpr (h.lookup_isSome.mpr hid)
  have hlen : nodes.keys.length = nodes.size := List.length_map _
  exact hlen ▸ (h.threads.nodup.subperm hsub).length_le

/-- Installs have left and all else has stayed. -/
structure Kept (s t : KeeperState) : Prop where
  params : t.params = s.params
  actions : t.actions = s.actions
  counter : t.state.nextChunkedArtifactId = s.state.nextChunkedArtifactId
  pending : ∀ id msg, t.pending.lookup id = some msg → s.pending.lookup id = some msg
  chunkData : ∀ id i data, t.chunkData.lookup (id, i) = some data →
    s.chunkData.lookup (id, i) = some data

theorem Kept.refl (s : KeeperState) : Kept s s :=
  ⟨rfl, rfl, rfl, fun _ _ h => h, fun _ _ _ h => h⟩

theorem Kept.trans {s t u : KeeperState} (h : Kept s t) (h' : Kept t u) : Kept s u where
  params := h'.params.trans h.params
  actions := h'.actions.trans h.actions
  counter := h'.counter.trans h.counter
  pending id msg hu := h.pending id msg (h'.pending id msg hu)
  chunkData id i data hu := h.chunkData id i data (h'.chunkData id i data hu)

theorem kept_removed (s : KeeperState) (id : Nat) : Kept s (removed s id) where
  params := rfl
  actions := rfl
  counter := rfl
  pending k msg hk := by
    change (s.pending.erase id).lookup k = some msg at hk
    rw [Table.lookup_erase] at hk
    split at hk
    · cases hk
    · exact hk
  chunkData k i data hk := by
    change (eraseChunks s.chunkData id _).lookup (k, i) = some data at hk
    rw [lookup_eraseChunks] at hk
    split at hk
    · cases hk
    · exact hk

theorem kept_removeAll (s : KeeperState) (dead : List Nat) : Kept s (dead.foldl removed s) := by
  induction dead generalizing s with
  | nil => exact Kept.refl s
  | cons id dead ih => exact (kept_removed s id).trans (ih (removed s id))

/-- What a pruning pass leaves of a state. -/
structure Pruned (ctx : Context) (s t : KeeperState) : Prop where
  pending : ∀ id, t.pending.lookup id =
    if expired s.params ctx s id then none else s.pending.lookup id
  kept : Kept s t

/-- A pruning pass never fails, keeps the state well formed and removes exactly
the installs that have expired. -/
theorem pruneExpiredBundleInstalls_run {sha512Sum : Bytes → Bytes} {now : Context} (ctx : Context)
    (h : WellFormed sha512Sum now s l) :
    ∃ t rest, pruneExpiredBundleInstalls ctx s = .ok () t ∧ WellFormed sha512Sum now t rest ∧
      Pruned ctx s t := by
  have hfuel : l.length < s.nodes.size + 1 := Nat.lt_succ_of_le h.list.length_le
  obtain ⟨dead, rest, rfl, hdead, hrest, hrun⟩ := pruneLoop_run s.params ctx h hfuel
  refine ⟨dead.foldl removed s, rest, ?_, h.removeAll, ?_⟩
  · rw [pruneExpiredBundleInstalls]
    refine (bind_run get_run).trans ((bind_run rfl).trans ((bind_run get_run).trans ?_))
    exact (bind_run hrun).trans rfl
  · refine ⟨fun id => ?_, kept_removeAll s dead⟩
    rw [lookup_removeAll]
    by_cases hid : id ∈ dead
    · rw [if_pos hid, if_pos (hdead id hid)]
    · have hlive : expired s.params ctx s id = false := by
        by_cases hmem : id ∈ rest
        · cases rest with
          | nil => cases hmem
          | cons k rest =>
            have hle : k ≤ id := by
              rcases List.mem_cons.mp hmem with rfl | hm
              · exact Nat.le_refl _
              · have hpair := (List.pairwise_append.mp h.list.increasing).2.1
                exact (List.rel_of_pairwise_cons hpair hm).le
            exact h.expired_sorted (by simp) hle (hrest k rfl)
        · have hnone : s.nodes.lookup id = none := by
            rw [← Option.not_isSome_iff_eq_none, h.list.lookup_isSome, List.mem_append]
            exact fun hm => hm.elim hid hmem
          rw [expired, hnone]
      rw [if_neg hid, if_neg (by rw [hlive]; exact Bool.false_ne_true)]

end Prune

end AgoricSdk.BundleInstall
