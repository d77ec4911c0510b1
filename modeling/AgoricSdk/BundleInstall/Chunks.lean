import AgoricSdk.BundleInstall.Expiry

/-!
The chunks of a pending install arrive one after another. A chunk is stored only
when it has the size and the hash that its install announced. The last chunk
completes the install: the chunks are joined, checked against the hash of the
whole, and the bundle is pushed for the controller while the install leaves the
list.
-/

namespace AgoricSdk.BundleInstall

open StateProgram

variable {services : Services} {now : Context} {s : KeeperState} {l : List Nat}

section Receive

/-- The states of the chunks left aside, what a message announces. -/
def MsgInstallBundle.announcement (msg : MsgInstallBundle) : MsgInstallBundle :=
  { msg with
    chunkedArtifact := msg.chunkedArtifact.map fun ca =>
      { ca with chunks := ca.chunks.map fun chunk => { chunk with state := .unspecified } } }

/-- The state with the data of a chunk, and the chunk marked as received. -/
def received (s : KeeperState) (msg : MsgSendChunk) (inst : MsgInstallBundle)
    (ca : ChunkedArtifact) (ci : ChunkInfo) : KeeperState :=
  { s with
    chunkData := s.chunkData.insert (msg.chunkedArtifactId, msg.chunkIndex) msg.chunkData
    pending := s.pending.insert msg.chunkedArtifactId
      { inst with
        chunkedArtifact := some
          { ca with chunks := ca.chunks.set msg.chunkIndex { ci with state := .received } } } }

/-- A chunk passed the checks against what its install announced. -/
structure Accepted (sha512Sum : Bytes → Bytes) (pending : Table Nat MsgInstallBundle)
    (msg : MsgSendChunk) (inst : MsgInstallBundle) (ca : ChunkedArtifact) (ci : ChunkInfo) :
    Prop where
  pending : pending.lookup msg.chunkedArtifactId = some inst
  artifact : inst.chunkedArtifact = some ca
  chunk : ca.chunks[msg.chunkIndex]? = some ci
  inFlight : ci.state = .inFlight
  verified : Verified sha512Sum ci msg.chunkData

theorem checkChunk_ok {msg : MsgSendChunk} {inst : MsgInstallBundle} {ca : ChunkedArtifact}
    {ci : ChunkInfo} (hdata : msg.chunkData ≠ [])
    (h : checkChunk services msg (s.pending.lookup msg.chunkedArtifactId) = .ok (inst, ca, ci)) :
    Accepted services.sha512Sum s.pending msg inst ca ci := by
  cases hpending : s.pending.lookup msg.chunkedArtifactId with
  | none => simp [checkChunk, hpending] at h
  | some inst' =>
    cases hartifact : inst'.chunkedArtifact with
    | none => simp [checkChunk, hpending, hartifact] at h
    | some ca' =>
      cases hchunk : ca'.chunks[msg.chunkIndex]? with
      | none => simp [checkChunk, hpending, hartifact, hchunk] at h
      | some ci' =>
        simp only [checkChunk, hpending, hartifact, hchunk] at h
        split at h
        · cases h
        · rename_i hstate
          split at h
          · cases h
          · rename_i hsize
            cases hhash : decodeHex ci'.sha512 with
            | none => simp [hhash] at h
            | some expected =>
              simp only [hhash] at h
              split at h
              · cases h
              · split at h
                · cases h
                · rename_i hsum
                  cases h
                  exact ⟨hpending, hartifact, hchunk, not_not.mp hstate, hdata, not_not.mp hsize,
                    hhash.trans (congrArg some (not_not.mp hsum).symm)⟩

theorem validateMsgSendChunk_ok {params : Params} {msg : MsgSendChunk}
    (h : validateMsgSendChunk params msg = .ok ()) : msg.chunkData ≠ [] := by
  have hbasic : msg.validateBasic = .ok () := by
    unfold validateMsgSendChunk at h
    cases hb : msg.validateBasic with
    | ok _ => rfl
    | error err => rw [hb] at h; cases h
  intro hempty
  simp only [MsgSendChunk.validateBasic, hempty, List.isEmpty_nil, if_true] at hbasic
  split at hbasic
  · cases hbasic
  · split at hbasic <;> cases hbasic

theorem WellFormed.receive {sha512Sum : Bytes → Bytes} {msg : MsgSendChunk}
    {inst : MsgInstallBundle} {ca : ChunkedArtifact} {ci : ChunkInfo}
    (h : WellFormed sha512Sum now s l)
    (ha : Accepted sha512Sum s.pending msg inst ca ci) :
    WellFormed sha512Sum now (received s msg inst ca ci) l where
  list := h.list
  started := h.started
  pending id := by
    rw [← h.pending]
    change ((s.pending.insert _ _).lookup id).isSome ↔ _
    rw [Table.lookup_insert]
    by_cases hid : id = msg.chunkedArtifactId
    · rw [if_pos hid, hid, ha.pending]
      rfl
    · rw [if_neg hid]
  chunks id i := by
    have hold := h.chunks id i
    have hlt : msg.chunkIndex < ca.chunks.length := (List.getElem?_eq_some_iff.mp ha.chunk).1
    change ChunkStored _ (chunkOf (s.pending.insert _ _) id i)
      ((s.chunkData.insert _ _).lookup (id, i))
    rw [chunkOf, Table.lookup_insert, Table.lookup_insert]
    by_cases hid : id = msg.chunkedArtifactId
    · subst hid
      rw [chunkOf, ha.pending, Option.bind_some, MsgInstallBundle.chunks, ha.artifact] at hold
      rw [if_pos rfl, Option.bind_some, MsgInstallBundle.chunks, List.getElem?_set]
      by_cases hi : msg.chunkIndex = i
      · subst hi
        rw [if_pos rfl, if_pos hlt, if_pos rfl]
        exact ⟨rfl, ha.verified.nonempty, ha.verified.size, ha.verified.hash⟩
      · rw [if_neg hi, if_neg fun he => hi (congrArg Prod.snd he).symm]
        exact hold
    · rw [if_neg hid, if_neg fun he => hid (congrArg Prod.fst he)]
      exact hold

end Receive

section Finalize

/-- The stored chunks of an install, in order. -/
def partsOf (s : KeeperState) (id count : Nat) : List Bytes :=
  (List.range count).map fun i => (s.chunkData.lookup (id, i)).getD []

/-- The message that installs the joined chunks. -/
def MsgInstallBundle.joined (msg : MsgInstallBundle) (data : Bytes) : MsgInstallBundle :=
  { (if msg.uncompressedSize > 0 then { msg with compressedBundle := data }
      else { msg with bundle := data }) with chunkedArtifact := none }

def ChunkedArtifact.AllReceived (ca : ChunkedArtifact) : Prop :=
  ∀ chunk ∈ ca.chunks, chunk.state = .received

/-- A pending install is complete and this bundle comes of it. -/
structure Completes (services : Services) (s : KeeperState) (id : Nat) (msg : MsgInstallBundle)
    (ca : ChunkedArtifact) (bundle : MsgInstallBundle) : Prop where
  pending : s.pending.lookup id = some msg
  artifact : msg.chunkedArtifact = some ca
  received : ca.AllReceived
  hash : decodeHex ca.sha512 =
    some (services.sha512Sum (partsOf s id ca.chunks.length).flatten)
  bundle : (msg.joined (partsOf s id ca.chunks.length).flatten).decompressed services = .ok bundle

theorem wp_ofExcept {ε σ α : Type} {e : Except ε α} {Q : α → σ → Prop} {E : ε → σ → Prop} {s : σ}
    (hok : ∀ a, e = .ok a → Q a s) (herr : ∀ err, e = .error err → E err s) :
    Wp (MonadExcept.ofExcept e : EStateM ε σ α) Q E s := by
  cases h : e with
  | ok a => exact hok a h
  | error err => exact herr err h

theorem installFinishedBundle_wp (msg : MsgInstallBundle) :
    Wp (installFinishedBundle services msg) (fun _ t => ∃ bundle,
      msg.decompressed services = .ok bundle ∧ t = { s with actions := s.actions ++ [bundle] })
      (fun _ _ => True) s := by
  rw [installFinishedBundle, wp_bind]
  apply wp_ofExcept
  · intro bundle hbundle
    rw [wp_bind]
    apply wp_ofExcept
    · intro _ _
      rw [pushAction, wp_bind, wp_get]
      cases services.pushAction s.actions bundle with
      | some err => exact trivial
      | none => exact ⟨bundle, hbundle, rfl⟩
    · exact fun _ _ => trivial
  · exact fun _ _ => trivial

theorem maybeFinalizeBundle_wp {sha512Sum : Bytes → Bytes} (h : WellFormed sha512Sum now s l)
    (id : Nat) : Wp (maybeFinalizeBundle services id)
      (fun _ t => (t = s ∧ ∀ msg ca, s.pending.lookup id = some msg →
          msg.chunkedArtifact = some ca → ¬ ca.AllReceived) ∨
        ∃ msg ca bundle, Completes services s id msg ca bundle ∧
          t = { removed s id with actions := s.actions ++ [bundle] })
      (fun _ _ => ∀ msg ca, s.pending.lookup id = some msg → msg.chunkedArtifact = some ca →
        ca.AllReceived) s := by
  have hget : getPendingBundleInstall id s = .ok (s.pending.lookup id) s := rfl
  rw [maybeFinalizeBundle, wp_bind, wp_of_run hget]
  cases hpending : s.pending.lookup id with
  | none => exact .inl ⟨rfl, fun _ _ hmsg => by cases hmsg⟩
  | some msg =>
    cases hartifact : msg.chunkedArtifact with
    | none =>
      simp only [hartifact, wp_throw]
      rintro msg' ca hmsg hca
      cases hmsg
      rw [hartifact] at hca
      cases hca
    | some ca =>
      have hid : id ∈ l := (h.pending id).mp (by rw [hpending]; rfl)
      have hparts : (List.range ca.chunks.length).mapM (fun i => getPendingChunkData id i) s =
          .ok (partsOf s id ca.chunks.length) s := mapM_run fun _ _ => rfl
      have hsame : ∀ msg' ca', some msg = some msg' → msg'.chunkedArtifact = some ca' → ca = ca' := by
        intro msg' ca' hmsg hca
        cases hmsg
        exact Option.some.inj (hartifact.symm.trans hca)
      obtain ⟨bundle, submitter, compressedBundle, uncompressedSize, artifact⟩ := msg
      obtain rfl : artifact = some ca := hartifact
      dsimp only
      apply wp_ite
      · intro hall
        refine .inl ⟨rfl, fun msg' ca' hmsg hca hreceived => ?_⟩
        obtain rfl := hsame msg' ca' hmsg hca
        simp only [Bool.not_eq_true', List.all_eq_false, decide_eq_true_eq] at hall
        obtain ⟨chunk, hchunk, hstate⟩ := hall
        exact hstate (hreceived chunk hchunk)
      · intro hall
        have hreceived : ca.AllReceived := by simpa [ChunkedArtifact.AllReceived] using hall
        have herr : ∀ msg' ca', some (MsgInstallBundle.mk bundle submitter compressedBundle
            uncompressedSize (some ca)) = some msg' → msg'.chunkedArtifact = some ca' →
            ca'.AllReceived := fun msg' ca' hmsg hca => hsame msg' ca' hmsg hca ▸ hreceived
        rw [wp_bind, wp_of_run hparts]
        cases hdecode : decodeHex ca.sha512 with
        | none => exact herr
        | some expected =>
          dsimp only
          apply wp_ite
          · exact fun _ => herr
          · intro hsum
            rw [wp_bind, wp_of_run (setPendingBundleInstall_none_run h.list hid)]
            apply wp_mono (installFinishedBundle_wp (MsgInstallBundle.joined
              ⟨bundle, submitter, compressedBundle, uncompressedSize, some ca⟩
              (partsOf s id ca.chunks.length).flatten))
            · rintro _ t ⟨handed, hhanded, rfl⟩
              exact .inr ⟨_, ca, handed, ⟨hpending, rfl, hreceived,
                hdecode.trans (congrArg some (not_not.mp hsum)), hhanded⟩, rfl⟩
            · exact fun _ _ _ => herr

theorem sendChunk_wp (h : WellFormed services.sha512Sum now s l) (msg : MsgSendChunk) :
    Wp (sendChunk services msg)
      (fun _ t => ∃ inst ca ci, Accepted services.sha512Sum s.pending msg inst ca ci ∧
        ((t = received s msg inst ca ci ∧ ∃ chunk ∈ ca.chunks.set msg.chunkIndex
            { ci with state := .received }, chunk.state ≠ .received) ∨ ∃ inst' ca' bundle,
          Completes services (received s msg inst ca ci) msg.chunkedArtifactId inst' ca' bundle ∧
          t = { removed (received s msg inst ca ci) msg.chunkedArtifactId with
            actions := s.actions ++ [bundle] }))
      (fun _ t => t = s ∨ ∃ inst ca ci, Accepted services.sha512Sum s.pending msg inst ca ci ∧
        ∀ i chunk, ca.chunks[i]? = some chunk → i ≠ msg.chunkIndex → chunk.state = .received) s := by
  rw [sendChunk, wp_bind, wp_get, wp_bind]
  apply wp_ofExcept
  · intro _ hvalid
    have hget : getPendingBundleInstall msg.chunkedArtifactId s =
        .ok (s.pending.lookup msg.chunkedArtifactId) s := rfl
    rw [wp_bind, wp_of_run hget, wp_bind]
    apply wp_ofExcept
    · intro checked hchecked
      obtain ⟨inst, ca, ci⟩ := checked
      have ha := checkChunk_ok (validateMsgSendChunk_ok hvalid) hchecked
      have hstored : setPendingChunkData msg.chunkedArtifactId msg.chunkIndex msg.chunkData s =
          .ok () { s with chunkData :=
            s.chunkData.insert (msg.chunkedArtifactId, msg.chunkIndex) msg.chunkData } := by
        have hne : ¬ msg.chunkData.isEmpty := by simpa using ha.verified.nonempty
        simp only [setPendingChunkData, hne]
        rfl
      dsimp only
      rw [wp_bind, wp_of_run hstored, wp_bind, setPendingBundleInstall, wp_modify]
      apply wp_mono (maybeFinalizeBundle_wp (h.receive ha) msg.chunkedArtifactId)
      · rintro _ t (⟨rfl, hmissing⟩ | ⟨inst', ca', bundle, hcompletes, rfl⟩)
        · have hnot := hmissing _ _ (Table.lookup_insert .. |>.trans (if_pos rfl)) rfl
          simp only [ChunkedArtifact.AllReceived, not_forall, exists_prop] at hnot
          exact ⟨inst, ca, ci, ha, .inl ⟨rfl, hnot⟩⟩
        · exact ⟨inst, ca, ci, ha, .inr ⟨inst', ca', bundle, hcompletes, rfl⟩⟩
      · intro _ t hall
        refine .inr ⟨inst, ca, ci, ha, fun i chunk hchunk hi => ?_⟩
        have hreceived := hall _ _ (Table.lookup_insert .. |>.trans (if_pos rfl)) rfl
        apply hreceived chunk
        have hget : (ca.chunks.set msg.chunkIndex { ci with state := .received })[i]? =
            some chunk := by rw [List.getElem?_set_ne hi.symm, hchunk]
        exact List.mem_of_getElem? hget
    · exact fun _ _ => .inl rfl
  · exact fun _ _ => .inl rfl

end Finalize

section Install

/-- The state with an install at the end of the list. -/
def added (ctx : Context) (s : KeeperState) (inst : MsgInstallBundle) : KeeperState :=
  { s with
    state := extendedEnds s.state
    pending := s.pending.insert (newId s.state) inst
    nodes := extended ctx s.state s.nodes }

/-- What is pending of an install message before any chunk arrives. -/
structure Fresh (msg inst : MsgInstallBundle) : Prop where
  announcement : inst.announcement = msg.announcement
  bundle : inst.bundle = []
  nonempty : inst.chunks ≠ []
  inFlight : ∀ chunk ∈ inst.chunks, chunk.state = .inFlight

theorem Started.extend {nodes : Table Nat ChunkedArtifactNode} {state : State}
    (h : Started nodes now) (hlist : ListHolds state nodes l) :
    Started (extended now state nodes) now := by
  have hcases : ∀ k start, startOf (extended now state nodes) k = some start →
      k = newId state ∧ start = now ∨ k ∈ l ∧ startOf nodes k = some start := by
    intro k start hk
    rw [startOf_extended] at hk
    by_cases hnew : k = newId state
    · rw [if_pos hnew] at hk
      exact .inl ⟨hnew, (Option.some.inj hk).symm⟩
    · rw [if_neg hnew] at hk
      obtain ⟨node, hnode, -⟩ := Option.map_eq_some_iff.mp hk
      exact .inr ⟨hlist.lookup_isSome.mp (Option.isSome_of_mem hnode), hk⟩
  have hrefl : now.Le now := ⟨Int.le_refl _, Int.le_refl _⟩
  constructor
  case ordered =>
    intro a b start start' hab ha hb
    obtain ⟨rfl, rfl⟩ | ⟨hmem, hb⟩ := hcases b start' hb
    · obtain ⟨-, rfl⟩ | ⟨-, ha⟩ := hcases a start ha
      · exact hrefl
      · exact h.past a start ha
    · obtain ⟨rfl, -⟩ | ⟨-, ha⟩ := hcases a start ha
      · exact absurd (hlist.lt_newId hmem) (by omega)
      · exact h.ordered a b start start' hab ha hb
  case past =>
    intro k start hk
    obtain ⟨-, rfl⟩ | ⟨-, hk⟩ := hcases k start hk
    · exact hrefl
    · exact h.past k start hk

theorem WellFormed.add {sha512Sum : Bytes → Bytes} (h : WellFormed sha512Sum now s l)
    {msg inst : MsgInstallBundle} (hfresh : Fresh msg inst) :
    WellFormed sha512Sum now (added now s inst) (l ++ [newId s.state]) where
  list := h.list.extend now
  started := h.started.extend h.list
  pending id := by
    change ((s.pending.insert _ _).lookup id).isSome ↔ _
    rw [Table.lookup_insert, List.mem_append, List.mem_singleton, ← h.pending]
    by_cases hid : id = newId s.state <;> simp [hid]
  chunks id i := by
    have hold := h.chunks id i
    change ChunkStored _ (chunkOf (s.pending.insert _ _) id i) (s.chunkData.lookup (id, i))
    rw [chunkOf, Table.lookup_insert]
    by_cases hid : id = newId s.state
    · have hnone : s.pending.lookup id = none := by
        rw [← Option.not_isSome_iff_eq_none, h.pending, hid]
        exact h.list.newId_notMem
      rw [chunkOf, hnone, Option.bind_none] at hold
      rw [if_pos hid, Option.bind_some]
      cases hdata : s.chunkData.lookup (id, i) with
      | some data => rw [hdata] at hold; exact hold.elim
      | none =>
        cases hchunk : inst.chunks[i]? with
        | none => exact trivial
        | some chunk => exact hfresh.inFlight chunk (List.mem_of_getElem? hchunk)
    · rw [if_neg hid]
      exact hold

theorem markInFlight_ok {chunks marked : List ChunkInfo} {i : Nat}
    (h : markInFlight chunks i = .ok marked) :
    marked = chunks.map fun chunk => { chunk with state := .inFlight } := by
  induction chunks generalizing i marked with
  | nil => cases h; rfl
  | cons chunk chunks ih =>
    rw [markInFlight] at h
    split at h
    · cases h
    · cases hrest : markInFlight chunks (i + 1) with
      | error err => rw [hrest] at h; cases h
      | ok rest =>
        rw [hrest] at h
        cases h
        rw [ih hrest]
        rfl

theorem validateMsgInstallBundle_ok {params : Params} {msg : MsgInstallBundle} {ca : ChunkedArtifact}
    (h : validateMsgInstallBundle params msg = .ok ()) (hca : msg.chunkedArtifact = some ca) :
    msg.bundle = [] := by
  have hbasic : msg.validateBasic = .ok () := by
    unfold validateMsgInstallBundle at h
    cases hb : msg.validateBasic with
    | ok _ => rfl
    | error err => rw [hb] at h; cases h
  by_contra hne
  have hbundle : msg.bundle.isEmpty = false := by simpa using hne
  simp only [MsgInstallBundle.validateBasic, hbundle, hca] at hbasic
  split at hbasic
  · cases hbasic
  · simp at hbasic

/-- What an install message does: it hands a whole bundle over, or adds a
pending install at the end of the list. -/
theorem installBundle_wp (services : Services) {sha512Sum : Bytes → Bytes} (h : WellFormed sha512Sum now s l)
    (msg : MsgInstallBundle) : Wp (installBundle services now msg)
      (fun id t => (id = 0 ∧ ∃ bundle, t = { s with actions := s.actions ++ [bundle] }) ∨
        ∃ inst, id = newId s.state ∧ t = added now s inst ∧ Fresh msg inst)
      (fun _ _ => True) s := by
  rw [installBundle, wp_bind, wp_get, wp_bind]
  apply wp_ofExcept
  · intro _ hvalid
    have hwhole : Wp (do installFinishedBundle services msg; return 0 : Keeper Nat)
        (fun id t => (id = 0 ∧ ∃ bundle, t = { s with actions := s.actions ++ [bundle] }) ∨
          ∃ inst, id = newId s.state ∧ t = added now s inst ∧ Fresh msg inst)
        (fun _ _ => True) s := by
      rw [wp_bind]
      apply wp_mono (installFinishedBundle_wp msg)
      · rintro _ t ⟨bundle, -, rfl⟩
        exact .inl ⟨rfl, bundle, rfl⟩
      · exact fun _ _ _ => trivial
    cases hca : msg.chunkedArtifact with
    | none => exact hwhole
    | some ca =>
      dsimp only
      apply wp_ite
      · exact fun _ => hwhole
      · intro hempty
        rw [wp_bind]
        apply wp_ofExcept
        · intro marked hmarked
          obtain rfl := markInFlight_ok hmarked
          have hbundle : msg.bundle = [] := validateMsgInstallBundle_ok hvalid hca
          rw [wp_of_run (addPendingBundleInstall_run h.list now _)]
          refine .inr ⟨_, rfl, rfl, ?_, hbundle, ?_, ?_⟩
          · simp [MsgInstallBundle.announcement, hca]
          · simpa [MsgInstallBundle.chunks] using hempty
          · intro chunk hchunk
            obtain ⟨c, -, rfl⟩ := List.mem_map.mp hchunk
            rfl
        · exact fun _ _ => trivial
  · exact fun _ _ => trivial

end Install

end AgoricSdk.BundleInstall
