import AgoricSdk.Lib.Transition
import AgoricSdk.BundleInstall.Chunks

/-!
The chain that installs bundles. Blocks follow each other with times and heights
that never go back; install and chunk messages arrive in any order, a message
with an error is discarded with all that it changed, and each block ends with a
pruning pass. Along with the keeper's state, a history records what was
announced, which chunks were accepted, and where each bundle handed to the
controller came from.
-/

namespace AgoricSdk.BundleInstall

open StateProgram LinkedList

structure World where
  keeper : KeeperState
  now : Context
  /-- The message that announced each chunked install. -/
  announced : Table Nat MsgInstallBundle := ∅
  /-- The data of the chunk messages that succeeded. -/
  accepted : Table (Nat × Nat) Bytes := ∅
  /-- The bundles handed over, with the chunked install each came from. -/
  handed : List (Option Nat × MsgInstallBundle) := []

inductive Action where
  | beginBlock (now : Context)
  | setParams (params : Params)
  | installBundle (msg : MsgInstallBundle)
  | sendChunk (msg : MsgSendChunk)
  | removePending (id : Nat)
  | endBlock

instance (a b : Context) : Decidable (a.Le b) :=
  decidable_of_iff (a.blockTime ≤ b.blockTime ∧ a.blockHeight ≤ b.blockHeight)
    ⟨fun h => ⟨h.1, h.2⟩, fun h => ⟨h.time, h.height⟩⟩

/-- A message has left this keeper state, and what it pushed has this origin. -/
def World.commit (w : World) (s : KeeperState) (origin : Option Nat) : World :=
  { w with
    keeper := s
    handed := w.handed ++
      (s.actions.drop w.keeper.actions.length).map fun bundle => (origin, bundle) }

variable (services : Services)

@[grind =] def step (w : World) : Action → Option World
  | .beginBlock now => if w.now.Le now then some { w with now } else none
  | .setParams params => some { w with keeper := { w.keeper with params } }
  | .installBundle msg =>
    match installBundle services w.now msg w.keeper with
    | .error _ _ => some w
    | .ok id s =>
      let w := w.commit s none
      some { w with announced := if id = 0 then w.announced else w.announced.insert id msg }
  | .sendChunk msg =>
    match sendChunk services msg w.keeper with
    | .error _ _ => some w
    | .ok _ s =>
      let w := w.commit s (some msg.chunkedArtifactId)
      some { w with
        accepted := w.accepted.insert (msg.chunkedArtifactId, msg.chunkIndex) msg.chunkData }
  | .removePending id =>
    match setPendingBundleInstall id none w.keeper with
    | .error _ _ => some w
    | .ok _ s => some { w with keeper := s }
  | .endBlock =>
    match pruneExpiredBundleInstalls w.now w.keeper with
    -- An error here halts the chain.
    | .error _ _ => none
    | .ok _ s => some { w with keeper := s }

/-- A chain starts without pending installs. -/
def chain : TransitionSystem World Action where
  init w := ∃ params now, w = { keeper := { params }, now }
  step := step services

section Assembly

/-- A bundle is put together from chunks that match the announcement: it is
their concatenation, or what this expands to when a size was announced for it. -/
structure AssembledFrom (msg : MsgInstallBundle) (ca : ChunkedArtifact) (parts : List Bytes)
    (bundle : MsgInstallBundle) : Prop where
  artifact : msg.chunkedArtifact = some ca
  length : parts.length = ca.chunks.length
  verified : ∀ (i : Nat) (chunk : ChunkInfo), ca.chunks[i]? = some chunk →
    ∃ part, parts[i]? = some part ∧ Verified services.sha512Sum chunk part
  hash : decodeHex ca.sha512 = some (services.sha512Sum parts.flatten)
  joined : msg.uncompressedSize ≤ 0 →
    bundle = { msg with bundle := parts.flatten, chunkedArtifact := none }
  expanded : 0 < msg.uncompressedSize → ∃ buf : Bytes,
    services.gunzip parts.flatten (msg.uncompressedSize + 1) = .ok buf ∧
    (buf.length : Int) = msg.uncompressedSize ∧
    bundle = { msg with
      bundle := buf, compressedBundle := [], uncompressedSize := 0, chunkedArtifact := none }

/-- What the history tells of a bundle that came from a chunked install. -/
def Delivered (w : World) (id : Nat) (bundle : MsgInstallBundle) : Prop :=
  ∃ msg ca parts, w.announced.lookup id = some msg ∧
    AssembledFrom services msg ca parts bundle ∧
    ∀ (i : Nat) (part : Bytes), parts[i]? = some part → w.accepted.lookup (id, i) = some part

end Assembly

/-- The history agrees with the keeper's state. -/
structure Recorded (w : World) : Prop where
  announced : ∀ id inst, w.keeper.pending.lookup id = some inst →
    inst.bundle = [] ∧ ∃ msg, w.announced.lookup id = some msg ∧
      inst.announcement = msg.announcement
  accepted : ∀ id i data, w.keeper.chunkData.lookup (id, i) = some data →
    w.accepted.lookup (id, i) = some data
  handed : w.handed.map Prod.snd = w.keeper.actions
  delivered : ∀ id bundle, (some id, bundle) ∈ w.handed → Delivered services w id bundle
  gone : ∀ id bundle, (some id, bundle) ∈ w.handed →
    w.keeper.pending.lookup id = none ∧ id ≤ w.keeper.state.nextChunkedArtifactId
  once : (w.handed.filterMap Prod.fst).Nodup

/-- No install whose chunks are all there is left waiting. -/
def Unfinished (s : KeeperState) : Prop :=
  ∀ id inst, s.pending.lookup id = some inst → ∃ chunk ∈ inst.chunks, chunk.state ≠ .received

def Holds (w : World) : Prop :=
  (∃ l, WellFormed services.sha512Sum w.now w.keeper l) ∧ Unfinished w.keeper ∧ Recorded services w

section Records

variable {services} {w : World} {s : KeeperState} {l : List Nat}

theorem Recorded.keep (h : Recorded services w) (hk : Kept w.keeper s) :
    Recorded services { w with keeper := s } where
  announced id inst hinst := h.announced id inst (hk.pending id inst hinst)
  accepted id i data hdata := h.accepted id i data (hk.chunkData id i data hdata)
  handed := h.handed.trans hk.actions.symm
  delivered id bundle hb := h.delivered id bundle hb
  gone id bundle hb := by
    obtain ⟨hnone, hle⟩ := h.gone id bundle hb
    refine ⟨?_, hk.counter ▸ hle⟩
    cases hpending : s.pending.lookup id with
    | none => rfl
    | some inst =>
      have hsome := hk.pending id inst hpending
      rw [hnone] at hsome
      cases hsome
  once := h.once

theorem announcement_received {inst : MsgInstallBundle} {ca : ChunkedArtifact} {ci : ChunkInfo}
    {i : Nat} (hca : inst.chunkedArtifact = some ca) (hci : ca.chunks[i]? = some ci) :
    MsgInstallBundle.announcement { inst with
      chunkedArtifact := some { ca with
        chunks := ca.chunks.set i { ci with state := .received } } } = inst.announcement := by
  have hchunks : (ca.chunks.set i { ci with state := .received }).map
      (fun chunk => { chunk with state := .unspecified }) =
      ca.chunks.map fun chunk => { chunk with state := .unspecified } := by
    apply List.ext_getElem?
    intro j
    rw [List.getElem?_map, List.getElem?_map, List.getElem?_set]
    by_cases hj : i = j
    · have hlt : i < ca.chunks.length := (List.getElem?_eq_some_iff.mp hci).1
      rw [if_pos hj, if_pos hlt, ← hj, hci]
      rfl
    · rw [if_neg hj]
  simp only [MsgInstallBundle.announcement, hca, Option.map_some, hchunks]

theorem Delivered.mono {w w' : World} {id : Nat} {bundle : MsgInstallBundle}
    (h : Delivered services w id bundle)
    (hannounced : w'.announced.lookup id = w.announced.lookup id)
    (haccepted : ∀ i, w'.accepted.lookup (id, i) = w.accepted.lookup (id, i)) :
    Delivered services w' id bundle := by
  obtain ⟨msg, ca, parts, hmsg, hassembled, hparts⟩ := h
  exact ⟨msg, ca, parts, hannounced.trans hmsg, hassembled,
    fun i part hpart => (haccepted i).trans (hparts i part hpart)⟩

theorem Recorded.receive {msg : MsgSendChunk} {inst : MsgInstallBundle} {ca : ChunkedArtifact}
    {ci : ChunkInfo} (h : Recorded services w)
    (ha : Accepted services.sha512Sum w.keeper.pending msg inst ca ci) :
    Recorded services { w with
      keeper := received w.keeper msg inst ca ci
      accepted := w.accepted.insert (msg.chunkedArtifactId, msg.chunkIndex) msg.chunkData } := by
  have hgone : ∀ id bundle, (some id, bundle) ∈ w.handed → id ≠ msg.chunkedArtifactId := by
    rintro id bundle hb rfl
    have hnone := (h.gone _ bundle hb).1
    rw [ha.pending] at hnone
    cases hnone
  constructor
  case announced =>
    intro id inst' hinst
    change (w.keeper.pending.insert _ _).lookup id = some inst' at hinst
    rw [Table.lookup_insert] at hinst
    by_cases hid : id = msg.chunkedArtifactId
    · rw [if_pos hid] at hinst
      cases hinst
      rw [hid, announcement_received ha.artifact ha.chunk]
      exact h.announced _ inst ha.pending
    · rw [if_neg hid] at hinst
      exact h.announced id inst' hinst
  case accepted =>
    intro id i data hdata
    change (w.keeper.chunkData.insert _ _).lookup (id, i) = some data at hdata
    rw [Table.lookup_insert] at hdata
    rw [Table.lookup_insert]
    split at hdata
    · rename_i heq
      rw [if_pos heq]
      exact hdata
    · rename_i hne
      rw [if_neg hne]
      exact h.accepted id i data hdata
  case handed => exact h.handed
  case delivered =>
    intro id bundle hb
    refine Delivered.mono (h.delivered id bundle hb) rfl fun i => ?_
    rw [Table.lookup_insert, if_neg fun he => hgone id bundle hb (congrArg Prod.fst he)]
  case gone =>
    intro id bundle hb
    obtain ⟨hnone, hle⟩ := h.gone id bundle hb
    refine ⟨?_, hle⟩
    change (w.keeper.pending.insert _ _).lookup id = none
    rw [Table.lookup_insert, if_neg (hgone id bundle hb), hnone]
  case once => exact h.once

theorem joined_congr {inst msg : MsgInstallBundle} (h : inst.announcement = msg.announcement)
    (data : Bytes) : inst.joined data = msg.joined data := by
  simp only [MsgInstallBundle.announcement, MsgInstallBundle.mk.injEq] at h
  obtain ⟨hbundle, hsubmitter, hcompressed, hsize, -⟩ := h
  simp only [MsgInstallBundle.joined, hsize]
  split <;> simp only [hbundle, hsubmitter, hcompressed]

theorem artifact_congr {inst msg : MsgInstallBundle} {ca : ChunkedArtifact}
    (h : inst.announcement = msg.announcement) (hca : inst.chunkedArtifact = some ca) :
    ∃ ca', msg.chunkedArtifact = some ca' ∧ ca'.sha512 = ca.sha512 ∧
      ca'.chunks.map (fun chunk => { chunk with state := .unspecified }) =
        ca.chunks.map fun chunk => { chunk with state := .unspecified } := by
  simp only [MsgInstallBundle.announcement, MsgInstallBundle.mk.injEq, hca, Option.map_some] at h
  obtain ⟨-, -, -, -, hmap⟩ := h
  obtain ⟨ca', hca', heq⟩ := Option.map_eq_some_iff.mp hmap.symm
  obtain ⟨hsha512, -, hchunks⟩ := ChunkedArtifact.mk.inj heq
  exact ⟨ca', hca', hsha512, hchunks⟩

theorem decompressed_joined {msg bundle : MsgInstallBundle} {data : Bytes} (hdata : data ≠ [])
    (hbundle : msg.bundle = []) (h : (msg.joined data).decompressed services = .ok bundle) :
    (msg.uncompressedSize ≤ 0 → bundle = { msg with bundle := data, chunkedArtifact := none }) ∧
    (0 < msg.uncompressedSize → ∃ buf : Bytes,
      services.gunzip data (msg.uncompressedSize + 1) = .ok buf ∧
      (buf.length : Int) = msg.uncompressedSize ∧
      bundle = { msg with
        bundle := buf, compressedBundle := [], uncompressedSize := 0, chunkedArtifact := none }) := by
  constructor
  · intro hsize
    simp only [MsgInstallBundle.joined, if_neg (not_lt.mpr hsize)] at h
    have hne : data.isEmpty = false := by simpa using hdata
    simp only [MsgInstallBundle.decompressed, hne] at h
    cases h
    rfl
  · intro hsize
    simp only [MsgInstallBundle.joined, if_pos hsize, MsgInstallBundle.decompressed, hbundle,
      List.isEmpty_nil, Bool.not_true] at h
    cases hbuf : services.gunzip data (msg.uncompressedSize + 1) with
    | error err => simp [hbuf] at h
    | ok buf =>
      by_cases hlength : (buf.length : Int) = msg.uncompressedSize
      · simp [hbuf, hlength] at h
        exact ⟨buf, rfl, hlength, h.symm⟩
      · simp [hbuf, hlength] at h

theorem Recorded.complete (h : Recorded services w)
    (hwf : WellFormed services.sha512Sum w.now w.keeper l) {id : Nat} {inst : MsgInstallBundle}
    {ca : ChunkedArtifact} {bundle : MsgInstallBundle}
    (hc : Completes services w.keeper id inst ca bundle) (hchunks : ca.chunks ≠ []) :
    Recorded services { w with
      keeper := { removed w.keeper id with actions := w.keeper.actions ++ [bundle] }
      handed := w.handed ++ [(some id, bundle)] } := by
  obtain ⟨hbundle, msg, hmsg, hannounced⟩ := h.announced id inst hc.pending
  have hkeep := h.keep (kept_removed w.keeper id)
  have hpart : ∀ (i : Nat) (chunk : ChunkInfo), ca.chunks[i]? = some chunk → ∃ part,
      (partsOf w.keeper id ca.chunks.length)[i]? = some part ∧
      w.keeper.chunkData.lookup (id, i) = some part ∧
      Verified services.sha512Sum chunk part := by
    intro i chunk hchunk
    have hstored := hwf.chunks id i
    have hof : chunkOf w.keeper.pending id i = some chunk := by
      rw [chunkOf, hc.pending, Option.bind_some, MsgInstallBundle.chunks, hc.artifact]
      exact hchunk
    have hlt : i < ca.chunks.length := (List.getElem?_eq_some_iff.mp hchunk).1
    rw [hof] at hstored
    cases hdata : w.keeper.chunkData.lookup (id, i) with
    | none =>
      rw [hdata] at hstored
      have hreceived := hc.received chunk (List.mem_of_getElem? hchunk)
      have hinFlight : chunk.state = .inFlight := hstored
      rw [hreceived] at hinFlight
      cases hinFlight
    | some part =>
      rw [hdata] at hstored
      refine ⟨part, ?_, rfl, hstored.2⟩
      rw [partsOf, List.getElem?_map, List.getElem?_range hlt, Option.map_some, hdata]
      rfl
  have hdelivered : Delivered services w id bundle := by
    obtain ⟨ca', hca', hsha512, hmap⟩ := artifact_congr hannounced hc.artifact
    have hlength : ca'.chunks.length = ca.chunks.length := by
      simpa using congrArg List.length hmap
    have hne : (partsOf w.keeper id ca.chunks.length).flatten ≠ [] := by
      obtain ⟨chunk, hchunk⟩ := List.exists_mem_of_ne_nil _ hchunks
      obtain ⟨i, hi⟩ := List.mem_iff_getElem?.mp hchunk
      obtain ⟨part, hpart, -, hverified⟩ := hpart i chunk hi
      intro hflat
      exact hverified.nonempty (List.flatten_eq_nil_iff.mp hflat part (List.mem_of_getElem? hpart))
    have hmsgbundle : msg.bundle = [] := by
      have := hannounced
      simp only [MsgInstallBundle.announcement, MsgInstallBundle.mk.injEq] at this
      rw [← this.1, hbundle]
    obtain ⟨hjoined, hexpanded⟩ := decompressed_joined hne hmsgbundle
      (joined_congr hannounced _ ▸ hc.bundle)
    refine ⟨msg, ca', partsOf w.keeper id ca.chunks.length, hmsg, ⟨hca', ?_, ?_, ?_, hjoined,
      hexpanded⟩, ?_⟩
    · rw [hlength]
      simp [partsOf]
    · intro i chunk hchunk
      have hget := congrArg (fun chunks => chunks[i]?) hmap
      simp only [List.getElem?_map, hchunk, Option.map_some] at hget
      obtain ⟨c, hc', heq⟩ := Option.map_eq_some_iff.mp hget.symm
      obtain ⟨hsha, hsize, -⟩ := ChunkInfo.mk.inj heq
      obtain ⟨part, hi, -, hverified⟩ := hpart i c hc'
      exact ⟨part, hi, hverified.nonempty, hsize.symm.trans hverified.size,
        hsha ▸ hverified.hash⟩
    · rw [hsha512]
      exact hc.hash
    · intro i part hi
      have hlt : i < ca.chunks.length := by
        simpa [partsOf] using (List.getElem?_eq_some_iff.mp hi).1
      obtain ⟨part', hi', hdata, -⟩ := hpart i _ (List.getElem?_eq_getElem hlt)
      obtain rfl := Option.some.inj (hi.symm.trans hi')
      exact h.accepted id i part hdata
  have hnew : ∀ b, (some id, b) ∉ w.handed := by
    intro b hb
    have hnone := (h.gone id b hb).1
    rw [hc.pending] at hnone
    cases hnone
  constructor
  case announced => exact hkeep.announced
  case accepted => exact hkeep.accepted
  case handed => simp [h.handed]
  case delivered =>
    intro k b hb
    rw [List.mem_append, List.mem_singleton] at hb
    obtain hb | heq := hb
    · exact Delivered.mono (h.delivered k b hb) rfl fun _ => rfl
    · cases heq
      exact Delivered.mono hdelivered rfl fun _ => rfl
  case gone =>
    intro k b hb
    rw [List.mem_append, List.mem_singleton] at hb
    obtain hb | heq := hb
    · exact hkeep.gone k b hb
    · cases heq
      have hid : id ∈ l := (hwf.pending id).mp (by rw [hc.pending]; rfl)
      exact ⟨(Table.lookup_erase ..).trans (if_pos rfl), hwf.list.bounded id hid⟩
  case once =>
    rw [List.filterMap_append, List.nodup_append]
    refine ⟨h.once, List.nodup_singleton _, ?_⟩
    rintro a ha b hb rfl
    obtain ⟨⟨origin, bundle'⟩, hmem, rfl⟩ := List.mem_filterMap.mp ha
    obtain rfl : a = id := by simpa using hb
    exact hnew bundle' hmem

theorem Recorded.whole (h : Recorded services w) (bundle : MsgInstallBundle) :
    Recorded services { w with
      keeper := { w.keeper with actions := w.keeper.actions ++ [bundle] }
      handed := w.handed ++ [(none, bundle)] } := by
  have hmem : ∀ id b, (some id, b) ∈ w.handed ++ [(none, bundle)] → (some id, b) ∈ w.handed := by
    intro id b hb
    simpa using hb
  constructor
  case announced => exact h.announced
  case accepted => exact h.accepted
  case handed => simp [h.handed]
  case delivered =>
    exact fun id b hb => Delivered.mono (h.delivered id b (hmem id b hb)) rfl fun _ => rfl
  case gone => exact fun id b hb => h.gone id b (hmem id b hb)
  case once => simpa using h.once

theorem Recorded.add (h : Recorded services w) {msg inst : MsgInstallBundle}
    (hfresh : Fresh msg inst) :
    Recorded services { w with
      keeper := added w.now w.keeper inst
      announced := w.announced.insert (newId w.keeper.state) msg } := by
  have hold : ∀ id, id ≤ w.keeper.state.nextChunkedArtifactId → id ≠ newId w.keeper.state := by
    intro id hid
    unfold newId
    omega
  constructor
  case announced =>
    intro id inst' hinst
    change (w.keeper.pending.insert _ _).lookup id = some inst' at hinst
    rw [Table.lookup_insert] at hinst
    rw [Table.lookup_insert]
    by_cases hid : id = newId w.keeper.state
    · rw [if_pos hid] at hinst
      cases hinst
      rw [if_pos hid]
      exact ⟨hfresh.bundle, msg, rfl, hfresh.announcement⟩
    · rw [if_neg hid] at hinst
      rw [if_neg hid]
      exact h.announced id inst' hinst
  case accepted => exact h.accepted
  case handed => exact h.handed
  case delivered =>
    intro id b hb
    apply Delivered.mono (h.delivered id b hb)
    · rw [Table.lookup_insert, if_neg (hold id (h.gone id b hb).2)]
    · exact fun _ => rfl
  case gone =>
    intro id b hb
    obtain ⟨hnone, hle⟩ := h.gone id b hb
    constructor
    · change (w.keeper.pending.insert _ _).lookup id = none
      rw [Table.lookup_insert, if_neg (hold id hle), hnone]
    · change id ≤ newId w.keeper.state
      unfold newId
      omega
  case once => exact h.once

end Records

section Steps

variable {services} {w w' : World} {l : List Nat}

theorem commit_same {s : KeeperState} (h : s.actions = w.keeper.actions) (origin : Option Nat) :
    w.commit s origin = { w with keeper := s } := by
  simp [World.commit, h]

theorem commit_push {s : KeeperState} {bundle : MsgInstallBundle}
    (h : s.actions = w.keeper.actions ++ [bundle]) (origin : Option Nat) :
    w.commit s origin = { w with keeper := s, handed := w.handed ++ [(origin, bundle)] } := by
  simp [World.commit, h]

theorem Unfinished.keep {s t : KeeperState} (h : Unfinished s) (hk : Kept s t) : Unfinished t :=
  fun id inst hinst => h id inst (hk.pending id inst hinst)

theorem Unfinished.insert {s t : KeeperState} {id : Nat} {inst : MsgInstallBundle}
    (h : Unfinished s) (ht : t.pending = s.pending.insert id inst)
    (hchunk : ∃ chunk ∈ inst.chunks, chunk.state ≠ .received) : Unfinished t := by
  intro k inst' hk
  rw [ht, Table.lookup_insert] at hk
  split at hk
  · cases hk
    exact hchunk
  · exact h k inst' hk

theorem Unfinished.erase {s t : KeeperState} {id : Nat} {inst : MsgInstallBundle}
    (h : Unfinished s) (ht : t.pending = (s.pending.insert id inst).erase id) : Unfinished t := by
  intro k inst' hk
  rw [ht, Table.erase_insert_self, Table.lookup_erase] at hk
  split at hk
  · cases hk
  · exact h k inst' hk

theorem WellFormed.later {sha512Sum : Bytes → Bytes} {now now' : Context} {s : KeeperState}
    (h : WellFormed sha512Sum now s l) (hle : now.Le now') : WellFormed sha512Sum now' s l where
  list := h.list
  pending := h.pending
  chunks := h.chunks
  started :=
    { ordered := h.started.ordered
      past := fun id start hstart =>
        ⟨(h.started.past id start hstart).time.trans hle.time,
          (h.started.past id start hstart).height.trans hle.height⟩ }

theorem holds_installBundle (h : Holds services w) (msg : MsgInstallBundle)
    (hstep : step services w (.installBundle msg) = some w') : Holds services w' := by
  obtain ⟨⟨l, hwf⟩, hunfinished, hrec⟩ := h
  have hwp := installBundle_wp services hwf msg
  cases hrun : installBundle services w.now msg w.keeper with
  | error err s =>
    rw [step, hrun] at hstep
    cases hstep
    exact ⟨⟨l, hwf⟩, hunfinished, hrec⟩
  | ok id s =>
    rw [step, hrun] at hstep
    cases hstep
    obtain ⟨rfl, bundle, rfl⟩ | ⟨inst, rfl, rfl, hfresh⟩ := wp_of_ok hwp hrun
    · rw [commit_push rfl]
      exact ⟨⟨l, hwf.list, hwf.pending, hwf.chunks, hwf.started⟩, hunfinished, hrec.whole bundle⟩
    · have hne : newId w.keeper.state ≠ 0 := Nat.succ_ne_zero _
      have hcommit : w.commit (added w.now w.keeper inst) none =
          { w with keeper := added w.now w.keeper inst } :=
        commit_same (s := added w.now w.keeper inst) rfl none
      rw [hcommit, if_neg hne]
      have hmissing : ∃ chunk ∈ inst.chunks, chunk.state ≠ .received := by
        obtain ⟨chunk, hchunk⟩ := List.exists_mem_of_ne_nil _ hfresh.nonempty
        refine ⟨chunk, hchunk, ?_⟩
        rw [hfresh.inFlight chunk hchunk]
        decide
      exact ⟨⟨_, hwf.add hfresh⟩, hunfinished.insert rfl hmissing, hrec.add hfresh⟩

theorem holds_sendChunk (h : Holds services w) (msg : MsgSendChunk)
    (hstep : step services w (.sendChunk msg) = some w') : Holds services w' := by
  obtain ⟨⟨l, hwf⟩, hunfinished, hrec⟩ := h
  have hwp := sendChunk_wp hwf msg
  cases hrun : sendChunk services msg w.keeper with
  | error err s =>
    rw [step, hrun] at hstep
    cases hstep
    exact ⟨⟨l, hwf⟩, hunfinished, hrec⟩
  | ok _ s =>
    rw [step, hrun] at hstep
    cases hstep
    obtain ⟨inst, ca, ci, ha, ⟨rfl, hmissing⟩ | ⟨inst', ca', bundle, hc, rfl⟩⟩ := wp_of_ok hwp hrun
    · have hcommit : w.commit (received w.keeper msg inst ca ci) (some msg.chunkedArtifactId) =
          { w with keeper := received w.keeper msg inst ca ci } :=
        commit_same (s := received w.keeper msg inst ca ci) rfl _
      rw [hcommit]
      exact ⟨⟨l, hwf.receive ha⟩, hunfinished.insert rfl hmissing, hrec.receive ha⟩
    · have hchunks : ca'.chunks ≠ [] := by
        have hpending := hc.pending
        have hartifact := hc.artifact
        change (w.keeper.pending.insert _ _).lookup _ = _ at hpending
        rw [Table.lookup_insert, if_pos rfl] at hpending
        cases hpending
        cases hartifact
        intro hnil
        have hlt : msg.chunkIndex < ca.chunks.length := (List.getElem?_eq_some_iff.mp ha.chunk).1
        have hlength := congrArg List.length hnil
        rw [List.length_set, List.length_nil] at hlength
        omega
      have hid : msg.chunkedArtifactId ∈ l := (hwf.pending _).mp (by rw [ha.pending]; rfl)
      obtain ⟨xs, ys, rfl⟩ := List.append_of_mem hid
      have hremoved := (hwf.receive ha).remove
      rw [commit_push rfl]
      exact ⟨⟨_, hremoved.list, hremoved.pending, hremoved.chunks, hremoved.started⟩,
        hunfinished.erase rfl, (hrec.receive ha).complete (hwf.receive ha) hc hchunks⟩

theorem holds_removePending (h : Holds services w) (id : Nat)
    (hstep : step services w (.removePending id) = some w') : Holds services w' := by
  obtain ⟨⟨l, hwf⟩, hunfinished, hrec⟩ := h
  by_cases hid : id ∈ l
  · have hrun := setPendingBundleInstall_none_run hwf.list hid
    obtain ⟨xs, ys, rfl⟩ := List.append_of_mem hid
    rw [step, hrun] at hstep
    cases hstep
    exact ⟨⟨_, hwf.remove⟩, hunfinished.keep (kept_removed w.keeper id),
      hrec.keep (kept_removed w.keeper id)⟩
  · have hpending : w.keeper.pending.lookup id = none := by
      rw [← Option.not_isSome_iff_eq_none, hwf.pending]
      exact hid
    have hnode : w.keeper.nodes.lookup id = none := by
      rw [← Option.not_isSome_iff_eq_none, hwf.list.lookup_isSome]
      exact hid
    obtain ⟨s, hrun⟩ := setPendingBundleInstall_none_missing hpending hnode
    rw [step, hrun] at hstep
    cases hstep
    exact ⟨⟨l, hwf⟩, hunfinished, hrec⟩

theorem holds_endBlock (h : Holds services w) (hstep : step services w .endBlock = some w') :
    Holds services w' := by
  obtain ⟨⟨l, hwf⟩, hunfinished, hrec⟩ := h
  obtain ⟨t, rest, hrun, hrest, hpruned⟩ := pruneExpiredBundleInstalls_run w.now hwf
  rw [step, hrun] at hstep
  cases hstep
  exact ⟨⟨rest, hrest⟩, hunfinished.keep hpruned.kept, hrec.keep hpruned.kept⟩

theorem Holds.step (h : Holds services w) (action : Action)
    (hstep : step services w action = some w') : Holds services w' := by
  cases action with
  | beginBlock now =>
    rw [BundleInstall.step] at hstep
    split at hstep
    · rename_i hle
      cases hstep
      obtain ⟨⟨l, hwf⟩, hunfinished, hrec⟩ := h
      exact ⟨⟨l, hwf.later hle⟩, hunfinished,
        hrec.announced, hrec.accepted, hrec.handed, hrec.delivered, hrec.gone, hrec.once⟩
    · cases hstep
  | setParams params =>
    cases hstep
    obtain ⟨⟨l, hwf⟩, hunfinished, hrec⟩ := h
    exact ⟨⟨l, hwf.list, hwf.pending, hwf.chunks, hwf.started⟩, hunfinished,
      hrec.announced, hrec.accepted, hrec.handed, hrec.delivered, hrec.gone, hrec.once⟩
  | installBundle msg => exact holds_installBundle h msg hstep
  | sendChunk msg => exact holds_sendChunk h msg hstep
  | removePending id => exact holds_removePending h id hstep
  | endBlock => exact holds_endBlock h hstep

theorem holds_init {params : Params} {now : Context} :
    Holds services { keeper := { params }, now } := by
  refine ⟨⟨[], listHolds_nil, by simp, fun id i => trivial, ?_⟩, by simp [Unfinished], ?_⟩
  · exact ⟨fun a b start start' _ ha => by simp [startOf] at ha, fun id start hid => by
      simp [startOf] at hid⟩
  · exact ⟨by simp, by simp, rfl, by simp, by simp, List.nodup_nil⟩

theorem Holds.reachable (h : (chain services).Reachable TransitionSystem.anyStep w) :
    Holds services w := by
  apply TransitionSystem.Reachable.invariant (I := Holds services) _ _ h
  · rintro w ⟨params, now, rfl⟩
    exact holds_init
  · exact fun w action w' hw _ hstep => hw.step action hstep

end Steps

/-- What the chain guarantees of its pending installs. -/
structure Guarantees (w : World) : Prop where
  /-- The list threads the pending installs in the order of their identifiers
  and of their starts, between the ends that the state names. -/
  list : ∃ l, ListHolds w.keeper.state w.keeper.nodes l ∧
    (∀ id, (w.keeper.pending.lookup id).isSome ↔ id ∈ l) ∧ Started w.keeper.nodes w.now
  /-- Chunk data is there exactly for the chunks marked as received. -/
  chunks : ∀ id i, (w.keeper.chunkData.lookup (id, i)).isSome ↔
    ∃ chunk, chunkOf w.keeper.pending id i = some chunk ∧ chunk.state = .received
  /-- A pruning pass does not fail, and removes exactly what has expired. -/
  prune : ∃ t, pruneExpiredBundleInstalls w.now w.keeper = .ok () t ∧
    ∀ id, t.pending.lookup id =
      if expired w.keeper.params w.now w.keeper id then none else w.keeper.pending.lookup id
  /-- A chunk message with an error changes nothing; its handler alone may have
  stored the last chunk, verified, of an install that it could not complete. -/
  errors : ∀ msg err t, sendChunk services msg w.keeper = .error err t →
    step services w (.sendChunk msg) = some w ∧
    (t = w.keeper ∨ ∃ inst ca ci, Accepted services.sha512Sum w.keeper.pending msg inst ca ci ∧
      ∀ (i : Nat) (chunk : ChunkInfo), ca.chunks[i]? = some chunk → i ≠ msg.chunkIndex →
        chunk.state = .received)
  /-- What is handed over comes from whole installs and from chunked ones that
  left the list; each of these is handed over once, put together from its
  verified chunks, and none waits with all its chunks there. -/
  handed : w.handed.map Prod.snd = w.keeper.actions
  delivered : ∀ id bundle, (some id, bundle) ∈ w.handed →
    Delivered services w id bundle ∧ w.keeper.pending.lookup id = none
  once : (w.handed.filterMap Prod.fst).Nodup
  unfinished : Unfinished w.keeper

theorem chunkData_isSome_iff {sha512Sum : Bytes → Bytes} {c : Option ChunkInfo} {data : Option Bytes}
    (h : ChunkStored sha512Sum c data) :
    data.isSome ↔ ∃ chunk, c = some chunk ∧ chunk.state = .received := by
  cases c with
  | none =>
    cases data with
    | none => simp
    | some data => exact h.elim
  | some chunk =>
    cases data with
    | none =>
      have hstate : chunk.state = .inFlight := h
      simp [hstate]
    | some data => simp [h.1]

theorem chain_guarantees {w : World}
    (h : (chain services).Reachable TransitionSystem.anyStep w) : Guarantees services w := by
  obtain ⟨⟨l, hwf⟩, hunfinished, hrec⟩ := Holds.reachable h
  obtain ⟨t, rest, hprune, -, hpruned⟩ := pruneExpiredBundleInstalls_run w.now hwf
  constructor
  case list => exact ⟨l, hwf.list, hwf.pending, hwf.started⟩
  case chunks => exact fun id i => chunkData_isSome_iff (hwf.chunks id i)
  case prune => exact ⟨t, hprune, hpruned.pending⟩
  case errors =>
    intro msg err t hrun
    have herr := wp_of_error (sendChunk_wp hwf msg) hrun
    refine ⟨?_, herr⟩
    rw [step, hrun]
  case handed => exact hrec.handed
  case delivered => exact fun id bundle hb => ⟨hrec.delivered id bundle hb, (hrec.gone id bundle hb).1⟩
  case once => exact hrec.once
  case unfinished => exact hunfinished

section Upload

/-- The text `{}` compressed. -/
def compressedText : Bytes :=
  [31, 139, 8, 0, 0, 0, 0, 0, 2, 3, 171, 174, 5, 0, 67, 191, 166, 163, 2, 0, 0, 0]

def compressedHash : String :=
  "1834fccffb16cf6daa61bc63b31abacd183f2867c51c9d445c6bc7a7bccfbdae" ++
  "21cde5ed5dedeb7a42fd719636b81cf5a0ff42439ca650f7bb6b693d6ff39e08"

/-- The services where this text is concerned. -/
def textServices : Services where
  sha512Sum data := if data = compressedText then (decodeHex compressedHash).getD [] else []
  gunzip data _ := if data = compressedText then .ok [123, 125] else .error "gzip: invalid header"
  pushAction _ _ := none

def textParams : Params where
  installationDeadlineBlocks := -1
  installationDeadlineSeconds := 86400
  bundleUncompressedSizeLimitBytes := 10000000
  chunkSizeLimitBytes := 490000

def compressedArtifact : ChunkedArtifact :=
  ⟨compressedHash, 22, [⟨compressedHash, 22, .unspecified⟩]⟩

def compressedInstall : MsgInstallBundle :=
  { submitter := [1], uncompressedSize := 2, chunkedArtifact := some compressedArtifact }

theorem compressedHash_digits : ∃ digits : List Char, compressedHash.toList = digits ∧
    digits.length = 128 ∧ (decodePairs digits).map List.length = some 64 := by
  obtain ⟨first, second, heq, hlength, hdecode⟩ : ∃ first second : List Char,
      compressedHash = String.ofList first ++ String.ofList second ∧
        (first ++ second).length = 128 ∧
          (decodePairs (first ++ second)).map List.length = some 64 :=
    ⟨_, _, rfl, by decide +kernel, by decide +kernel⟩
  exact ⟨_, by rw [heq, String.toList_append, String.toList_ofList, String.toList_ofList],
    hlength, hdecode⟩

theorem compressedHash_decodes : compressedHash.length = 128 ∧
    ∃ sum, decodeHex compressedHash = some sum ∧ sum.length = 64 := by
  obtain ⟨digits, htoList, hlength, hdecode⟩ := compressedHash_digits
  rw [← String.length_toList, decodeHex, htoList]
  exact ⟨hlength, Option.map_eq_some_iff.mp hdecode⟩



section Hash

variable {hash : String} {sum : Bytes}

/-- An install of one chunk, which has the whole bundle's hash. -/
def installOf (hash : String) (state : ChunkState) : MsgInstallBundle :=
  { submitter := [1], uncompressedSize := 2,
    chunkedArtifact := some ⟨hash, 22, [⟨hash, 22, state⟩]⟩ }

def announcedKeeper (hash : String) : KeeperState :=
  { params := textParams
    state := ⟨1, 1, 1⟩
    pending := (∅ : Table Nat MsgInstallBundle).insert 1 (installOf hash .inFlight)
    nodes := (∅ : Table Nat ChunkedArtifactNode).insert 1
      { chunkedArtifactId := 1, startBlockHeight := 1 } }

def handedKeeper (hash : String) : KeeperState :=
  { params := textParams
    state := ⟨0, 0, 1⟩
    pending := (((∅ : Table Nat MsgInstallBundle).insert 1 (installOf hash .inFlight)).insert 1
      (installOf hash .received)).erase 1
    nodes := (announcedKeeper hash).nodes.erase 1
    chunkData := ((∅ : Table (Nat × Nat) Bytes).insert (1, 0) compressedText).erase (1, 0)
    actions := [{ submitter := [1], bundle := [123, 125] }] }

theorem installBundle_hash (services : Services) (hlength : hash.length = 128)
    (hdecode : decodeHex hash = some sum) :
    installBundle services ⟨0, 1⟩ (installOf hash .unspecified) { params := textParams } =
      .ok 1 (announcedKeeper hash) := by
  have hhex : isHexBytes hash = true := by
    rw [← String.length_toList] at hlength
    unfold isHexBytes
    rw [hdecode]
    cases htoList : hash.toList with
    | nil => rw [htoList] at hlength; cases hlength
    | cons => rfl
  have hartifact : (⟨hash, 22, [⟨hash, 22, .unspecified⟩]⟩ : ChunkedArtifact).validateBasic =
      .ok () := by
    simp [ChunkedArtifact.validateBasic, validateChunks, hlength, hhex, sha512Size, maxUint64]
  have hvalid : validateMsgInstallBundle textParams (installOf hash .unspecified) = .ok () := by
    simp [validateMsgInstallBundle, MsgInstallBundle.validateBasic, installOf,
      validateChunkedArtifact, hartifact]
    rfl
  unfold installBundle
  rw [bind_run get_run, bind_run (ofExcept_run hvalid)]
  rfl

theorem sendChunk_hash {services : Services} (hdecode : decodeHex hash = some sum)
    (hlength : sum.length = 64) (hsum : services.sha512Sum compressedText = sum)
    (hgunzip : services.gunzip compressedText 3 = .ok [123, 125])
    (hpush : ∀ actions msg, services.pushAction actions msg = none) :
    sendChunk services ⟨1, [2], 0, compressedText⟩ (announcedKeeper hash) =
      .ok ⟨⟩ (handedKeeper hash) := by
  have hvalid : validateMsgSendChunk (announcedKeeper hash).params
      ⟨1, [2], 0, compressedText⟩ = .ok () := by
    change validateMsgSendChunk textParams _ = _
    decide
  have hsize : compressedText.length = 22 := rfl
  have hcheck : checkChunk services ⟨1, [2], 0, compressedText⟩ (some (installOf hash .inFlight)) =
      .ok (installOf hash .inFlight, ⟨hash, 22, [⟨hash, 22, .inFlight⟩]⟩,
        ⟨hash, 22, .inFlight⟩) := by
    simp [checkChunk, installOf, hdecode, hsum, hlength, sha512Size, hsize]
  have hfinished (s : KeeperState) : installFinishedBundle services
      { submitter := [1], uncompressedSize := 2, compressedBundle := compressedText } s =
        .ok ⟨⟩ { s with actions := s.actions ++ [{ submitter := [1], bundle := [123, 125] }] } := by
    have hdecompressed : MsgInstallBundle.decompressed services
        { submitter := [1], uncompressedSize := 2, compressedBundle := compressedText } =
          .ok { submitter := [1], bundle := [123, 125] } := by
      unfold MsgInstallBundle.decompressed
      dsimp only
      rw [show (2 : ℤ) + 1 = 3 from rfl, hgunzip]
      rfl
    unfold installFinishedBundle
    rw [bind_run (ofExcept_run hdecompressed), bind_run (ofExcept_run (by rfl))]
    unfold pushAction
    rw [bind_run get_run, hpush]
    rfl
  have hfinalize : maybeFinalizeBundle services 1 { announcedKeeper hash with
      chunkData := (∅ : Table (Nat × Nat) Bytes).insert (1, 0) compressedText
      pending := ((∅ : Table Nat MsgInstallBundle).insert 1 (installOf hash .inFlight)).insert 1
        (installOf hash .received) } = .ok ⟨⟩ (handedKeeper hash) := by
    unfold maybeFinalizeBundle
    rw [bind_run (m := getPendingBundleInstall 1) (a := some (installOf hash .received)) rfl]
    dsimp only [installOf]
    rw [if_neg (by simp), bind_run (m := List.mapM _ _) (a := [compressedText]) rfl]
    simp only [List.flatten_cons, List.flatten_nil, List.append_nil, hdecode, hsum]
    rw [if_neg (by simp), bind_run (m := setPendingBundleInstall 1 none) (a := ⟨⟩) rfl]
    exact hfinished _
  unfold sendChunk
  rw [bind_run get_run, bind_run (ofExcept_run hvalid),
    bind_run (m := getPendingBundleInstall 1) (a := some (installOf hash .inFlight)) rfl,
    bind_run (ofExcept_run hcheck)]
  exact hfinalize

/-- The chain when the chunk has been sent. -/
def uploadedWorld (hash : String) : World :=
  { keeper := handedKeeper hash
    now := ⟨0, 1⟩
    announced := (∅ : Table Nat MsgInstallBundle).insert 1 (installOf hash .unspecified)
    accepted := (∅ : Table (Nat × Nat) Bytes).insert (1, 0) compressedText
    handed := [(some 1, { submitter := [1], bundle := [123, 125] })] }

theorem upload_run {services : Services} (hhash : hash.length = 128)
    (hdecode : decodeHex hash = some sum) (hlength : sum.length = 64)
    (hsum : services.sha512Sum compressedText = sum)
    (hgunzip : services.gunzip compressedText 3 = .ok [123, 125])
    (hpush : ∀ actions msg, services.pushAction actions msg = none) :
    (chain services).runWhile TransitionSystem.anyStep
      { keeper := { params := textParams }, now := ⟨0, 1⟩ }
      [.installBundle (installOf hash .unspecified), .sendChunk ⟨1, [2], 0, compressedText⟩,
        .endBlock] = some (uploadedWorld hash) := by
  have hinstall := installBundle_hash services hhash hdecode
  have hsend := sendChunk_hash hdecode hlength hsum hgunzip hpush
  have hstep : (chain services).step = step services := rfl
  have hannounced : (chain services).step { keeper := { params := textParams }, now := ⟨0, 1⟩ }
      (.installBundle (installOf hash .unspecified)) =
        some { keeper := announcedKeeper hash
               now := ⟨0, 1⟩
               announced := (uploadedWorld hash).announced } := by
    rw [hstep, step, hinstall]
    rfl
  have hsent : (chain services).step
      { keeper := announcedKeeper hash, now := ⟨0, 1⟩, announced := (uploadedWorld hash).announced }
      (.sendChunk ⟨1, [2], 0, compressedText⟩) = some (uploadedWorld hash) := by
    rw [hstep, step, hsend]
    rfl
  rw [TransitionSystem.runWhile, if_pos (show TransitionSystem.anyStep _ _ from trivial),
    hannounced, Option.bind_some, TransitionSystem.runWhile,
    if_pos (show TransitionSystem.anyStep _ _ from trivial), hsent]
  rfl

end Hash

/-- A compressed bundle is announced and sent in one chunk. -/
def compressedUpload : List Action :=
  [.installBundle compressedInstall, .sendChunk ⟨1, [2], 0, compressedText⟩, .endBlock]

def firstWorld : World := { keeper := { params := textParams }, now := ⟨0, 1⟩ }

theorem compressedUpload_run : (chain textServices).runWhile TransitionSystem.anyStep firstWorld
    compressedUpload = some (uploadedWorld compressedHash) := by
  obtain ⟨hhash, sum, hdecode, hlength⟩ := compressedHash_decodes
  have hsum : textServices.sha512Sum compressedText = sum := by
    unfold textServices
    dsimp only
    rw [if_pos rfl, hdecode, Option.getD_some]
  exact upload_run hhash hdecode hlength hsum rfl fun _ _ => rfl

theorem compressedUpload_runs : ((chain textServices).runWhile TransitionSystem.anyStep firstWorld
    compressedUpload).isSome := by
  rw [compressedUpload_run]
  rfl

theorem compressedUpload_reachable : (chain textServices).Reachable TransitionSystem.anyStep
    (Option.get _ compressedUpload_runs) :=
  .of_runWhile (.init ⟨textParams, ⟨0, 1⟩, rfl⟩) (Option.some_get compressedUpload_runs).symm

theorem chain_guarantees_of_upload :
    Guarantees textServices (Option.get _ compressedUpload_runs) :=
  chain_guarantees textServices compressedUpload_reachable

/-- The bundle handed over need not be the concatenation of its chunks. -/
theorem handed_expanded : ¬ ∀ services w, (chain services).Reachable TransitionSystem.anyStep w →
    ∀ id bundle msg ca, (some id, bundle) ∈ w.handed → w.announced.lookup id = some msg →
      msg.chunkedArtifact = some ca → bundle.bundle =
        (List.range ca.chunks.length).flatMap fun i => (w.accepted.lookup (id, i)).getD [] := by
  intro h
  have hreachable : (chain textServices).Reachable TransitionSystem.anyStep
      (uploadedWorld compressedHash) :=
    .of_runWhile (.init ⟨textParams, ⟨0, 1⟩, rfl⟩) compressedUpload_run
  have hjoined := h textServices _ hreachable 1 { submitter := [1], bundle := [123, 125] }
    compressedInstall compressedArtifact (List.mem_singleton_self _) rfl rfl
  exact absurd hjoined (by decide)

end Upload

end AgoricSdk.BundleInstall
