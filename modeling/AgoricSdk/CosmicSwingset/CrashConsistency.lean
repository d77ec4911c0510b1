import AgoricSdk.CosmicSwingset.BlockHistory

/-!
Crash consistency of block execution. Whenever a node crashes, the history in the
swing-store is that of the blocks one after the other, each executed once, and a block
that the chain executes again is replayed from the saved sends. The export data that
the chain gets in a block is that of the block itself, unless a process saves with its
first block the sends of the block before, which it was launched with, and the node
crashes before the chain commits that block too.
-/

namespace AgoricSdk.CosmicSwingset

variable {Params Chain : Type} (host : Host Params Chain)

section Statement

variable (store : SwingStore Params) (blocks : List (List SavedChainSend))
  (segments : List (History Params)) (launches : History Params)

/-- The committed history: the blocks one after the other, then launches. -/
structure Committed : Prop where
  history : store.history = segments.flatten ++ launches
  executed : ∀ i segment, segments[i]? = some segment →
    IsBlock host (host.initialHeight + i) segment
  ofLaunch : ∀ e ∈ launches, IsLaunch e
  /-- The chain has committed the same blocks, or all but the last one. -/
  behind : blocks.length = segments.length ∨ blocks.length + 1 = segments.length
  /-- In each block the chain got the export data of that block. -/
  exports : blocks.map exportsOf = (segments.take blocks.length).map historyExports

/-- The chain executes a block whose results have been committed. -/
def Replays : Prop := blocks.length + 1 = segments.length

/-- What a running process may have done on top of the committed history. -/
def InProgress (m : BlockManager Params Chain) : Phase → Prop
  | .initialized | .begun =>
    ∃ launched starts, m.store.history = store.history ++ (launched ++ starts) ∧
      (∀ e ∈ launched, IsLaunch e) ∧ (Replays blocks segments → starts = []) ∧
      (¬ Replays blocks segments → ∃ evals,
        Starts host (nextHeight host blocks) (starts.map Execution.input) evals)
  | .ended =>
    (Replays blocks segments → ∃ launched, m.store.history = store.history ++ launched ∧
      (∀ e ∈ launched, IsLaunch e) ∧
      m.received = sendsOf launched ++ store.chainSends.getD [] ∧
      segments.getLast?.map historyExports = some (exportsOf m.received)) ∧
    (¬ Replays blocks segments → ∃ segment, m.store.history = store.history ++ segment ∧
      IsBlock host (nextHeight host blocks) (launches ++ segment) ∧
      m.received = sendsOf segment)
  | .committed => m.store = store ∧
      segments.getLast?.map historyExports = some (exportsOf m.received)
  | .hostCommitted | .idle => m.store = store

/-- Each block's actions are executed exactly once in the committed history, a block that
has been committed is only replayed, and another one is executed on the committed state. -/
def CrashConsistent (s : Node Params Chain) : Prop :=
  ∃ segments launches, Committed host s.store s.blocks segments launches ∧
    ∀ m phase, s.running = some (m, phase) →
      InProgress host s.store s.blocks segments launches m phase

/-- The node does not crash between the commits of a block with which its process has
saved export data of an earlier block: the block is the first one that the process
executes, and the process was launched with the saved sends of the block before. -/
def CleanCrash (s : Node Params Chain) : NodeAction → Prop
  | .crash => ∀ process ∈ s.running, process.2 = .committed → exportsOf process.1.inherited = []
  | _ => True

instance (s : Node Params Chain) : (a : NodeAction) → Decidable (CleanCrash s a)
  | .crash => inferInstanceAs (Decidable (∀ process ∈ s.running,
      process.2 = .committed → exportsOf process.1.inherited = []))
  | .start => inferInstanceAs (Decidable True)
  | .beginBlock => inferInstanceAs (Decidable True)
  | .endBlock => inferInstanceAs (Decidable True)
  | .commitBlock => inferInstanceAs (Decidable True)
  | .commitChain => inferInstanceAs (Decidable True)
  | .afterCommitBlock => inferInstanceAs (Decidable True)

end Statement

section Invariant

variable {host} {store : SwingStore Params} {blocks : List (List SavedChainSend)}
  {segments : List (History Params)} {launches : History Params}
  {m m' : BlockManager Params Chain}

/-- The height of the last block in the swing-store. -/
def tip (host : Host Params Chain) (segments : List (History Params)) : Nat :=
  if segments = [] then 0 else host.initialHeight + segments.length - 1

theorem tip_of_replays (host : Host Params Chain) (h : Replays blocks segments) :
    tip host segments = nextHeight host blocks ∧ tip host segments ≠ 0 := by
  have hpositive := host.initialHeight_pos
  unfold Replays at h
  have hne : segments ≠ [] := by
    rintro rfl
    cases h
  unfold tip nextHeight
  rw [if_neg hne]
  omega

theorem next_of_tip (host : Host Params Chain) (h : blocks.length = segments.length)
    (hne : tip host segments ≠ 0) :
    nextHeight host blocks = tip host segments + 1 := by
  have hpositive := host.initialHeight_pos
  unfold tip at hne ⊢
  unfold nextHeight
  split at hne
  case isTrue => exact absurd rfl hne
  case isFalse hsome =>
    have hlength : 0 < segments.length := List.length_pos_iff.mpr hsome
    rw [if_neg hsome]
    omega

/-- What the committed states say, however the process ends. -/
structure Durable (host : Host Params Chain) (store : SwingStore Params)
    (blocks : List (List SavedChainSend)) (segments : List (History Params))
    (launches : History Params) : Prop where
  committed : Committed host store blocks segments launches
  height : store.height.getD 0 = tip host segments
  beginHeight : store.beginHeight.getD (tip host segments) = tip host segments
  fresh : segments = [] → launches = []
  quiet : historyExports launches = []

/-- The saved sends have the export data of the last block. -/
def SavedLast (store : SwingStore Params) (segments : List (History Params)) : Prop :=
  segments.getLast?.map historyExports = some (exportsOf (store.chainSends.getD []))

/-- A process before the end of a block: it was launched and has started at most. -/
structure Pending (host : Host Params Chain) (store : SwingStore Params)
    (blocks : List (List SavedChainSend)) (segments : List (History Params))
    (m : BlockManager Params Chain) (launched starts : History Params) : Prop where
  history : m.store.history = store.history ++ (launched ++ starts)
  ofLaunch : ∀ e ∈ launched, IsLaunch e
  quiet : historyExports launched = []
  savedHeight : m.savedHeight = tip host segments
  received : m.received = sendsOf (launched ++ starts)
  replays : Replays blocks segments → starts = [] ∧
    m.savedChainSends = store.chainSends.getD [] ∧
    m.store.beginHeight = store.beginHeight ∧ SavedLast store segments
  executes : ¬ Replays blocks segments → ∃ evals,
    Starts host (nextHeight host blocks) (starts.map Execution.input) evals ∧
    IsForced evals m.runThisBlock ∧
    exportsOf m.savedChainSends = exportsOf m.inherited ++ historyExports starts

/-- A process that has replayed a block. -/
structure Replayed (store : SwingStore Params) (segments : List (History Params))
    (m : BlockManager Params Chain) (launched : History Params) : Prop where
  history : m.store.history = store.history ++ launched
  ofLaunch : ∀ e ∈ launched, IsLaunch e
  quiet : historyExports launched = []
  received : m.received = sendsOf launched ++ store.chainSends.getD []
  saved : m.savedChainSends = store.chainSends.getD []
  inherited : m.inherited = []
  beginHeight : m.store.beginHeight = store.beginHeight
  last : SavedLast store segments

/-- A process that has executed a block, and has not committed it yet. -/
structure Executed (host : Host Params Chain) (store : SwingStore Params)
    (blocks : List (List SavedChainSend)) (launches : History Params)
    (m : BlockManager Params Chain) (segment : History Params) : Prop where
  history : m.store.history = store.history ++ segment
  block : IsBlock host (nextHeight host blocks) (launches ++ segment)
  received : m.received = sendsOf segment
  saved : exportsOf m.savedChainSends = exportsOf m.inherited ++ historyExports segment
  beginHeight : m.store.beginHeight = some (nextHeight host blocks)

/-- A process that has committed a block, which the chain has not. -/
structure SwingCommitted (host : Host Params Chain) (store : SwingStore Params)
    (blocks : List (List SavedChainSend)) (segments : List (History Params))
    (m : BlockManager Params Chain) : Prop where
  same : m.store = store
  savedHeight : m.savedHeight = tip host segments
  cleared : m.savedChainSends = [] ∧ m.runThisBlock = []
  behind : Replays blocks segments
  last : ∃ segment, segments.getLast? = some segment ∧
    exportsOf m.received = historyExports segment ∧
    exportsOf (store.chainSends.getD []) = exportsOf m.inherited ++ historyExports segment

/-- A process between two blocks. -/
structure Resting (host : Host Params Chain) (store : SwingStore Params)
    (blocks : List (List SavedChainSend)) (segments : List (History Params))
    (m : BlockManager Params Chain) : Prop where
  same : m.store = store
  savedHeight : m.savedHeight = tip host segments
  cleared : m.savedChainSends = [] ∧ m.runThisBlock = [] ∧ m.received = [] ∧ m.inherited = []
  caught : blocks.length = segments.length
  nonempty : segments ≠ []

def RunningKept (host : Host Params Chain) (store : SwingStore Params)
    (blocks : List (List SavedChainSend)) (segments : List (History Params))
    (launches : History Params) : Option (BlockManager Params Chain × Phase) → Prop
  | none => Replays blocks segments → SavedLast store segments
  | some (m, .initialized) => ∃ launched starts, Pending host store blocks segments m launched starts
  | some (m, .begun) =>
    (∃ launched starts, Pending host store blocks segments m launched starts) ∧
    ∃ params, host.params (nextHeight host blocks) = .ok params ∧ m.blockParams = some params ∧
      (¬ Replays blocks segments → m.store.beginHeight = some (nextHeight host blocks))
  | some (m, .ended) => m.savedHeight = nextHeight host blocks ∧
    (Replays blocks segments → ∃ launched, Replayed store segments m launched) ∧
    (¬ Replays blocks segments → ∃ segment, Executed host store blocks launches m segment)
  | some (m, .committed) => SwingCommitted host store blocks segments m
  | some (m, .hostCommitted) | some (m, .idle) => Resting host store blocks segments m

def Kept (host : Host Params Chain) (s : Node Params Chain) : Prop :=
  ∃ segments launches, Durable host s.store s.blocks segments launches ∧
    RunningKept host s.store s.blocks segments launches s.running

theorem Kept.proceed {s : Node Params Chain} {phase : Phase}
    {result : Except String (BlockManager Params Chain)}
    (hdurable : Durable host s.store s.blocks segments launches)
    (hlast : Replays s.blocks segments → SavedLast s.store segments)
    (hok : ∀ m, result = .ok m →
      RunningKept host s.store s.blocks segments launches (some (m, phase))) :
    Kept host (proceed s phase result) := by
  unfold CosmicSwingset.proceed
  cases result with
  | ok m => exact ⟨segments, launches, hdurable, hok m rfl⟩
  | error message => exact ⟨segments, launches, hdurable, hlast⟩

end Invariant

section Starting

variable {host} {store : SwingStore Params} {blocks : List (List SavedChainSend)}
  {segments : List (History Params)} {launches launched : History Params}
  {m m' : BlockManager Params Chain}

theorem pending_of_skip (hlaunched : Launched host store m launched)
    (hdurable : Durable host store blocks segments launches) (hreplays : Replays blocks segments)
    (hlast : SavedLast store segments) :
    Pending host store blocks segments { m with allowExportCallback := true } launched [] where
  history := by
    rw [List.append_nil]
    exact hlaunched.history
  ofLaunch := hlaunched.ofLaunch
  quiet := hlaunched.exports
  savedHeight := hlaunched.savedHeight.trans hdurable.height
  received := by
    rw [List.append_nil]
    exact hlaunched.received
  replays _ := ⟨rfl, hlaunched.saved, hlaunched.begun, hlast⟩
  executes hnot := absurd hreplays hnot

theorem pending_of_starting (hlaunched : Launched host store m launched)
    (hdurable : Durable host store blocks segments launches)
    (hnot : ¬ Replays blocks segments) {starts : History Params} {events evals : List ForcedAction}
    (hstarting : Starting { m with allowExportCallback := true } m' starts (events ++ evals))
    (hactions : ∀ action ∈ events, ∃ height, action = .kernelUpgradeEvents height)
    (hstarts : Starts host (nextHeight host blocks) (starts.map Execution.input) evals) :
    Pending host store blocks segments m' launched starts where
  history := by
    rw [hstarting.extended.history, hlaunched.history, List.append_assoc]
  ofLaunch := hlaunched.ofLaunch
  quiet := hlaunched.exports
  savedHeight :=
    hstarting.extended.savedHeight.trans (hlaunched.savedHeight.trans hdurable.height)
  received := by
    rw [hstarting.extended.received, hlaunched.received, sendsOf_append]
  replays hreplays := absurd hreplays hnot
  executes _ := by
    refine ⟨evals, hstarts, ⟨events, ?_, hactions⟩, ?_⟩
    · rw [hstarting.forced, hlaunched.forced, List.nil_append]
    · rw [hstarting.extended.saved, hstarting.extended.inherited, hlaunched.saved,
        hlaunched.inherited, exportsOf_append]
      rfl

theorem tip_eq_zero_iff : tip host segments = 0 ↔ segments = [] := by
  have hpositive := host.initialHeight_pos
  unfold tip
  constructor
  · intro h
    by_contra hne
    rw [if_neg hne] at h
    have hlength := List.length_pos_iff.mpr hne
    omega
  · exact fun h => if_pos h

theorem history_ne_nil (hdurable : Durable host store blocks segments launches)
    (hne : segments ≠ []) : store.history ≠ [] := by
  obtain ⟨segment, rest, rfl⟩ := List.exists_cons_of_ne_nil hne
  obtain ⟨first, starts, sends, saves, params, evals, runThisBlock, heq, -⟩ :=
    (hdurable.committed.executed 0 segment rfl).parts
  rw [hdurable.committed.history, heq]
  simp

theorem startProcess_pending {s : Node Params Chain}
    (hdurable : Durable host s.store s.blocks segments launches)
    (hlast : Replays s.blocks segments → SavedLast s.store segments)
    (h : startProcess host s = .ok m') :
    ∃ launched starts, Pending host s.store s.blocks segments m' launched starts := by
  have hbehind := hdurable.committed.behind
  unfold startProcess at h
  split at h
  case isTrue hempty =>
    obtain ⟨m, hlaunch, h⟩ := bind_eq_ok.mp h
    obtain ⟨launched, hlaunched⟩ := launch_ok hlaunch
    have hheight := hlaunched.savedHeight.trans hdurable.height
    have hproposals : m.savedHeight = 0 → m.bootstrapCoreProposals = host.coreProposals := by
      intro hzero
      have hnone := tip_eq_zero_iff.mp (hheight.symm.trans hzero)
      rw [hlaunched.proposals, if_pos]
      rw [hdurable.committed.history, hdurable.fresh hnone, hnone]
      rfl
    rw [hempty] at hbehind
    rcases cosmosInit_genesis h hproposals with ⟨hne, rfl⟩ | ⟨hzero, starts, events, evals,
      hstarting, hactions, hstarts⟩
    · have hsome : segments ≠ [] := fun hnone =>
        hne (hheight.trans (tip_eq_zero_iff.mpr hnone))
      have hreplays : Replays s.blocks segments := by
        rcases hbehind with hnone | hone
        · exact absurd (List.eq_nil_of_length_eq_zero hnone.symm) hsome
        · rw [hempty]
          exact hone
      exact ⟨launched, [], pending_of_skip hlaunched hdurable hreplays (hlast hreplays)⟩
    · have hnone := tip_eq_zero_iff.mp (hheight.symm.trans hzero)
      have hnot : ¬ Replays s.blocks segments := by
        rw [hnone]
        exact nofun
      refine ⟨launched, starts, pending_of_starting hlaunched hdurable hnot hstarting hactions ?_⟩
      rw [hempty]
      exact hstarts
  case isFalse hsome =>
    obtain ⟨m, hlaunch, h⟩ := bind_eq_ok.mp h
    obtain ⟨launched, hlaunched⟩ := launch_ok hlaunch
    have hheight := hlaunched.savedHeight.trans hdurable.height
    have hlength := List.length_pos_iff.mpr hsome
    have hne : segments ≠ [] := by
      rintro rfl
      rw [List.length_nil] at hbehind
      omega
    have hproposals : m.bootstrapCoreProposals = [] := by
      rw [hlaunched.proposals, if_neg (history_ne_nil hdurable hne)]
    have hnext : host.initialHeight < nextHeight host s.blocks := by
      unfold nextHeight
      omega
    have htip : tip host segments ≠ 0 := fun hzero => hne (tip_eq_zero_iff.mp hzero)
    rcases cosmosInit_later h hproposals hnext with ⟨-, hsame, rfl⟩ | ⟨hneeds, starts, events, evals,
      hstarting, hactions, hstarts⟩
    · have hreplays : Replays s.blocks segments := by
        rcases hbehind with hcaught | hone
        · have hstep := next_of_tip host hcaught htip
          omega
        · exact hone
      exact ⟨launched, [], pending_of_skip hlaunched hdurable hreplays (hlast hreplays)⟩
    · have hnot : ¬ Replays s.blocks segments := by
        intro hreplays
        have hsame := (tip_of_replays host hreplays).1
        omega
      exact ⟨launched, starts, pending_of_starting hlaunched hdurable hnot hstarting hactions hstarts⟩

end Starting

section Blocks

variable {host} {store : SwingStore Params} {blocks : List (List SavedChainSend)}
  {segments : List (History Params)} {launches launched starts : History Params}
  {m m' : BlockManager Params Chain}

theorem executes_iff (hdurable : Durable host store blocks segments launches)
    (h : m.savedHeight = tip host segments) :
    (m.savedHeight = 0 ∨ nextHeight host blocks = m.savedHeight + 1 →
      ¬ Replays blocks segments) ∧
    (m.savedHeight ≠ 0 ∧ nextHeight host blocks = m.savedHeight → Replays blocks segments) := by
  rw [h]
  constructor
  · intro hneeds hreplays
    obtain ⟨hsame, hne⟩ := tip_of_replays host hreplays
    omega
  · rintro ⟨hne, hsame⟩
    rcases hdurable.committed.behind with hcaught | hbehind
    · have hstep := next_of_tip host hcaught hne
      omega
    · exact hbehind

theorem Pending.withChain (h : Pending host store blocks segments m launched starts)
    (chain : Chain) : Pending host store blocks segments { m with chain } launched starts :=
  { h with }

theorem Pending.begin (hdurable : Durable host store blocks segments launches)
    (h : Pending host store blocks segments m launched starts)
    (hbegin : beginBlock host (nextHeight host blocks) m = .ok m') :
    RunningKept host store blocks segments launches (some (m', .begun)) := by
  obtain ⟨hexecutes, hreplays⟩ := executes_iff hdurable h.savedHeight
  obtain ⟨params, hparams, ⟨hne, hsame, rfl⟩ | ⟨hneeds, rfl⟩⟩ := beginBlock_ok hbegin
  · refine ⟨⟨launched, starts, { h with }⟩, params, hparams, rfl, ?_⟩
    exact fun hnot => absurd (hreplays ⟨hne, hsame⟩) hnot
  · have hnot := hexecutes hneeds
    refine ⟨⟨launched, starts, ?_⟩, params, hparams, rfl, fun _ => rfl⟩
    exact { h with replays := fun hagain => absurd hagain hnot }

theorem Resting.pending (h : Resting host store blocks segments m)
    (hupgrade : host.upgradeDetails (nextHeight host blocks) = none) :
    Pending host store blocks segments m [] [] := by
  obtain ⟨hsaved, hforced, hreceived, hinherited⟩ := h.cleared
  have hlength := List.length_pos_iff.mpr h.nonempty
  have hnot : ¬ Replays blocks segments := by
    unfold Replays
    have hcaught := h.caught
    omega
  constructor
  case history =>
    rw [h.same, List.append_nil, List.append_nil]
  case ofLaunch => exact nofun
  case quiet => rfl
  case savedHeight => exact h.savedHeight
  case received => exact hreceived
  case replays => exact fun hreplays => absurd hreplays hnot
  case executes =>
    intro _
    refine ⟨[], .ordinary ?_ hupgrade, ⟨[], hforced, nofun⟩, ?_⟩
    · unfold nextHeight
      have hcaught := h.caught
      omega
    · rw [hsaved, hinherited]
      rfl

theorem Pending.end (hdurable : Durable host store blocks segments launches)
    (h : Pending host store blocks segments m launched starts) {params : Params}
    (hparams : host.params (nextHeight host blocks) = .ok params)
    (hblock : m.blockParams = some params)
    (hbegun : ¬ Replays blocks segments → m.store.beginHeight = some (nextHeight host blocks))
    (hend : endBlock host (nextHeight host blocks) m = .ok m') :
    RunningKept host store blocks segments launches (some (m', .ended)) := by
  obtain ⟨hexecutes, hreplays⟩ := executes_iff hdurable h.savedHeight
  rcases endBlock_ok hblock hend with ⟨hne, hsame, hreplay⟩ | ⟨hneeds, sends, saves, m₁, hextends,
    hbeginHeight, -, rfl⟩
  · have hagain := hreplays ⟨hne, hsame⟩
    obtain ⟨chain, rfl⟩ := replayChainSends_ok hreplay
    obtain ⟨rfl, hsaved, hstore, hlast⟩ := h.replays hagain
    refine ⟨hsame.symm, fun _ => ⟨launched, ?_⟩, fun hnot => absurd hagain hnot⟩
    constructor
    case history => rw [h.history, List.append_nil]
    case ofLaunch => exact h.ofLaunch
    case quiet => exact h.quiet
    case received =>
      dsimp only
      rw [h.received, hsaved, List.append_nil]
    case saved => exact hsaved
    case inherited => rfl
    case beginHeight => exact hstore
    case last => exact hlast
  · have hnot := hexecutes hneeds
    obtain ⟨evals, hstarts, hforced, hexports⟩ := h.executes hnot
    refine ⟨rfl, fun hagain => absurd hagain hnot, fun _ => ⟨launched ++ starts ++
      [{ input := .endBlock (nextHeight host blocks) (host.blockTime (nextHeight host blocks))
          params m.runThisBlock, sends }, { input := .saveChainState, sends := saves }], ?_⟩⟩
    constructor
    case history =>
      dsimp only
      rw [hextends.history, h.history, List.append_assoc]
    case block =>
      refine ⟨launches ++ launched, starts, sends, saves, params, evals, m.runThisBlock, ?_, ?_,
        hstarts, hparams, hforced⟩
      · simp only [List.append_assoc]
      · intro e he
        rcases List.mem_append.mp he with he | he
        · exact hdurable.committed.ofLaunch e he
        · exact h.ofLaunch e he
    case received =>
      dsimp only
      rw [hextends.received, h.received, sendsOf_append (launched ++ starts)]
    case saved =>
      dsimp only
      rw [hextends.saved, hextends.inherited, exportsOf_append, hexports,
        historyExports_append, historyExports_append, h.quiet, List.nil_append, List.append_assoc]
      rfl
    case beginHeight =>
      dsimp only
      rw [hbeginHeight, hbegun hnot]

theorem Replayed.commit (hdurable : Durable host store blocks segments launches)
    (h : Replayed store segments m launched) (hreplays : Replays blocks segments)
    (hcommit : commitBlock host (nextHeight host blocks) m = .ok m') :
    Durable host m'.store blocks segments (launches ++ launched) ∧
      SwingCommitted host m'.store blocks segments m' := by
  obtain ⟨hheight, hforced, rfl⟩ := commitBlock_ok hcommit
  obtain ⟨htip, hne⟩ := tip_of_replays host hreplays
  obtain ⟨segment, hsegment, hexports⟩ := Option.map_eq_some_iff.mp h.last
  constructor
  · constructor
    case committed =>
      refine { hdurable.committed with history := ?_, ofLaunch := ?_ }
      · dsimp only
        rw [h.history, hdurable.committed.history, List.append_assoc]
      · intro e he
        rcases List.mem_append.mp he with he | he
        · exact hdurable.committed.ofLaunch e he
        · exact h.ofLaunch e he
    case height => exact htip.symm
    case beginHeight =>
      dsimp only
      rw [h.beginHeight]
      exact hdurable.beginHeight
    case fresh =>
      rintro rfl
      cases hsegment
    case quiet => rw [historyExports_append, hdurable.quiet, h.quiet, List.append_nil]
  · constructor
    case same => rfl
    case savedHeight => exact hheight.symm.trans htip.symm
    case cleared => exact ⟨rfl, hforced⟩
    case behind => exact hreplays
    case last =>
      refine ⟨segment, hsegment, ?_, ?_⟩
      · have hquiet : exportsOf (sendsOf launched) = [] := h.quiet
        dsimp only
        rw [h.received, exportsOf_append, hquiet, List.nil_append, hexports]
      · dsimp only
        rw [Option.getD_some, h.saved, h.inherited, hexports]
        rfl

theorem Executed.commit (hdurable : Durable host store blocks segments launches)
    {segment : History Params} (h : Executed host store blocks launches m segment)
    (hnot : ¬ Replays blocks segments)
    (hcommit : commitBlock host (nextHeight host blocks) m = .ok m') :
    Durable host m'.store blocks (segments ++ [launches ++ segment]) [] ∧
      SwingCommitted host m'.store blocks (segments ++ [launches ++ segment]) m' := by
  obtain ⟨hheight, hforced, rfl⟩ := commitBlock_ok hcommit
  have hcaught := hdurable.committed.behind.resolve_right hnot
  have hreplays : Replays blocks (segments ++ [launches ++ segment]) := by
    unfold Replays
    rw [List.length_append, hcaught]
    rfl
  obtain ⟨htip, hne⟩ := tip_of_replays host hreplays
  have hexports : historyExports (launches ++ segment) = historyExports segment := by
    rw [historyExports_append, hdurable.quiet, List.nil_append]
  constructor
  · constructor
    case committed =>
      constructor
      case history =>
        dsimp only
        rw [h.history, hdurable.committed.history, List.flatten_append]
        simp only [List.flatten_cons, List.flatten_nil, List.append_nil, List.append_assoc]
      case executed =>
        intro i part hpart
        rw [List.getElem?_append] at hpart
        split at hpart
        case isTrue => exact hdurable.committed.executed i part hpart
        case isFalse hge =>
          rw [List.getElem?_singleton] at hpart
          obtain ⟨hlast, heq⟩ := Option.ite_none_right_eq_some.mp hpart
          obtain rfl := Option.some.inj heq
          have hi : host.initialHeight + i = nextHeight host blocks := by
            unfold nextHeight
            omega
          rw [hi]
          exact h.block
      case ofLaunch => exact nofun
      case behind => exact .inr hreplays
      case exports =>
        rw [List.take_append_of_le_length hcaught.le]
        exact hdurable.committed.exports
    case height => exact htip.symm
    case beginHeight =>
      dsimp only
      rw [h.beginHeight, htip]
      rfl
    case fresh => exact fun _ => rfl
    case quiet => rfl
  · constructor
    case same => rfl
    case savedHeight => exact hheight.symm.trans htip.symm
    case cleared => exact ⟨rfl, hforced⟩
    case behind => exact hreplays
    case last =>
      refine ⟨launches ++ segment, List.getLast?_concat, ?_, ?_⟩
      · dsimp only
        rw [h.received, hexports]
        rfl
      · dsimp only
        rw [Option.getD_some, h.saved, hexports]

theorem SwingCommitted.commitChain (hdurable : Durable host store blocks segments launches)
    (h : SwingCommitted host store blocks segments m) :
    Durable host store (blocks ++ [m.received]) segments launches ∧
      Resting host store (blocks ++ [m.received]) segments
        { m with received := [], inherited := [] } := by
  obtain ⟨segment, hsegment, hexports, -⟩ := h.last
  obtain ⟨front, rfl⟩ := List.getLast?_eq_some_iff.mp hsegment
  have hlength : blocks.length = front.length := by
    have hbehind := h.behind
    unfold Replays at hbehind
    rw [List.length_append] at hbehind
    exact Nat.succ.inj hbehind
  have hcaught : (blocks ++ [m.received]).length = (front ++ [segment]).length := by
    rw [List.length_append, List.length_append, hlength]
    rfl
  constructor
  · refine { hdurable with committed := { hdurable.committed with behind := .inl hcaught, exports := ?_ } }
    have hbefore := hdurable.committed.exports
    rw [hlength, List.take_left] at hbefore
    rw [hcaught, List.take_length, List.map_append, List.map_append, hbefore, List.map_singleton,
      List.map_singleton, hexports]
  · constructor
    case same => exact h.same
    case savedHeight => exact h.savedHeight
    case cleared => exact ⟨h.cleared.1, h.cleared.2, rfl, rfl⟩
    case caught => exact hcaught
    case nonempty => exact List.append_ne_nil_of_right_ne_nil _ (List.cons_ne_nil _ _)

end Blocks

section Runs

variable {host} {s t : Node Params Chain} {segments : List (History Params)}
  {launches : History Params} {m : BlockManager Params Chain} {phase : Phase}

theorem savedLast_of_running (h : RunningKept host s.store s.blocks segments launches s.running)
    (hrunning : s.running = some (m, phase))
    (hclean : phase = .committed → exportsOf m.inherited = []) :
    Replays s.blocks segments → SavedLast s.store segments := by
  rw [hrunning] at h
  intro hreplays
  cases phase with
  | initialized =>
    obtain ⟨launched, starts, hpending⟩ := h
    exact (hpending.replays hreplays).2.2.2
  | begun =>
    obtain ⟨⟨launched, starts, hpending⟩, -⟩ := h
    exact (hpending.replays hreplays).2.2.2
  | ended =>
    obtain ⟨launched, hreplayed⟩ := h.2.1 hreplays
    exact hreplayed.last
  | committed =>
    obtain ⟨segment, hsegment, -, hsaved⟩ := h.last
    unfold SavedLast
    rw [hsegment, hsaved, hclean rfl]
    rfl
  | hostCommitted =>
    have hcaught := h.caught
    unfold Replays at hreplays
    omega
  | idle =>
    have hcaught := h.caught
    unfold Replays at hreplays
    omega

theorem Kept.step {a : NodeAction} (h : Kept host s) (hclean : CleanCrash s a)
    (hstep : nodeStep host s a = some t) : Kept host t := by
  obtain ⟨segments, launches, hdurable, hrunning⟩ := h
  cases a with
  | start =>
    cases hnone : s.running with
    | some p => simp [nodeStep, hnone] at hstep
    | none =>
      rw [nodeStep, hnone] at hstep
      cases hstep
      rw [hnone] at hrunning
      apply Kept.proceed hdurable hrunning
      exact fun m hstart => startProcess_pending hdurable hrunning hstart
  | beginBlock =>
    cases hprocess : s.running with
    | none => simp [nodeStep, hprocess] at hstep
    | some process =>
      obtain ⟨m, phase⟩ := process
      cases phase with
      | initialized =>
        have hlast := savedLast_of_running hrunning hprocess nofun
        simp only [nodeStep, hprocess, Option.some.injEq] at hstep
        subst hstep
        rw [hprocess] at hrunning
        obtain ⟨launched, starts, hpending⟩ := hrunning
        apply Kept.proceed hdurable hlast
        intro m' hbegin
        exact (hpending.withChain _).begin hdurable hbegin
      | idle =>
        have hlast := savedLast_of_running hrunning hprocess nofun
        simp only [nodeStep, hprocess] at hstep
        split at hstep
        case isTrue => cases hstep
        case isFalse hupgrade =>
          cases hstep
          rw [hprocess] at hrunning
          have hpending := hrunning.pending (by simpa using hupgrade)
          apply Kept.proceed hdurable hlast
          intro m' hbegin
          exact (hpending.withChain _).begin hdurable hbegin
      | _ => simp [nodeStep, hprocess] at hstep
  | endBlock =>
    cases hprocess : s.running with
    | none => simp [nodeStep, hprocess] at hstep
    | some process =>
      obtain ⟨m, phase⟩ := process
      cases phase with
      | begun =>
        have hlast := savedLast_of_running hrunning hprocess nofun
        simp only [nodeStep, hprocess, Option.some.injEq] at hstep
        subst hstep
        rw [hprocess] at hrunning
        obtain ⟨⟨launched, starts, hpending⟩, params, hparams, hblock, hbegun⟩ := hrunning
        apply Kept.proceed hdurable hlast
        intro m' hend
        let chain := host.deliverTxs (nextHeight host s.blocks) m.chain
        exact (hpending.withChain chain).end hdurable hparams hblock hbegun hend
      | _ => simp [nodeStep, hprocess] at hstep
  | commitBlock =>
    cases hprocess : s.running with
    | none => simp [nodeStep, hprocess] at hstep
    | some process =>
      obtain ⟨m, phase⟩ := process
      cases phase with
      | ended =>
        have hlast := savedLast_of_running hrunning hprocess nofun
        simp only [nodeStep, hprocess] at hstep
        rw [hprocess] at hrunning
        cases hcommit : commitBlock host (nextHeight host s.blocks) m with
        | error message =>
          rw [hcommit] at hstep
          cases hstep
          exact ⟨segments, launches, hdurable, hlast⟩
        | ok m' =>
          rw [hcommit] at hstep
          cases hstep
          by_cases hreplays : Replays s.blocks segments
          · obtain ⟨launched, hreplayed⟩ := hrunning.2.1 hreplays
            obtain ⟨hdurable', hcommitted⟩ := hreplayed.commit hdurable hreplays hcommit
            exact ⟨segments, launches ++ launched, hdurable', hcommitted⟩
          · obtain ⟨segment, hexecuted⟩ := hrunning.2.2 hreplays
            obtain ⟨hdurable', hcommitted⟩ := hexecuted.commit hdurable hreplays hcommit
            exact ⟨segments ++ [launches ++ segment], [], hdurable', hcommitted⟩
      | _ => simp [nodeStep, hprocess] at hstep
  | commitChain =>
    cases hprocess : s.running with
    | none => simp [nodeStep, hprocess] at hstep
    | some process =>
      obtain ⟨m, phase⟩ := process
      cases phase with
      | committed =>
        simp only [nodeStep, hprocess, Option.some.injEq] at hstep
        subst hstep
        rw [hprocess] at hrunning
        obtain ⟨hdurable', hresting⟩ := hrunning.commitChain hdurable
        exact ⟨segments, launches, hdurable', hresting⟩
      | _ => simp [nodeStep, hprocess] at hstep
  | afterCommitBlock =>
    cases hprocess : s.running with
    | none => simp [nodeStep, hprocess] at hstep
    | some process =>
      obtain ⟨m, phase⟩ := process
      cases phase with
      | hostCommitted =>
        have hlast := savedLast_of_running hrunning hprocess nofun
        simp only [nodeStep, hprocess, Option.some.injEq] at hstep
        subst hstep
        rw [hprocess] at hrunning
        apply Kept.proceed hdurable hlast
        intro m' hafter
        obtain ⟨-, -, hafter⟩ := bind_eq_ok.mp hafter
        cases hafter
        exact { hrunning with }
      | _ => simp [nodeStep, hprocess] at hstep
  | crash =>
    cases hprocess : s.running with
    | none => simp [nodeStep, hprocess] at hstep
    | some process =>
      obtain ⟨m, phase⟩ := process
      simp only [nodeStep, hprocess, Option.some.injEq] at hstep
      subst hstep
      have hlast := savedLast_of_running hrunning hprocess (hclean (m, phase) hprocess)
      exact ⟨segments, launches, hdurable, hlast⟩

theorem kept_init : Kept host { chain := host.genesis } := by
  refine ⟨[], [], ?_, nofun⟩
  constructor
  case committed => exact ⟨rfl, nofun, nofun, .inl rfl, rfl⟩
  case height => rfl
  case beginHeight => rfl
  case fresh => exact fun _ => rfl
  case quiet => rfl

theorem Kept.crashConsistent (h : Kept host s) : CrashConsistent host s := by
  obtain ⟨segments, launches, hdurable, hkept⟩ := h
  refine ⟨segments, launches, hdurable.committed, ?_⟩
  intro m phase hrunning
  rw [hrunning] at hkept
  have hpending : ∀ launched starts,
      Pending host s.store s.blocks segments m launched starts →
      ∃ launched starts, m.store.history = s.store.history ++ (launched ++ starts) ∧
        (∀ e ∈ launched, IsLaunch e) ∧ (Replays s.blocks segments → starts = []) ∧
        (¬ Replays s.blocks segments → ∃ evals,
          Starts host (nextHeight host s.blocks) (starts.map Execution.input) evals) := by
    intro launched starts h
    refine ⟨launched, starts, h.history, h.ofLaunch, fun hreplays => (h.replays hreplays).1, ?_⟩
    intro hnot
    obtain ⟨evals, hstarts, -⟩ := h.executes hnot
    exact ⟨evals, hstarts⟩
  cases phase with
  | initialized =>
    obtain ⟨launched, starts, h⟩ := hkept
    exact hpending launched starts h
  | begun =>
    obtain ⟨⟨launched, starts, h⟩, -⟩ := hkept
    exact hpending launched starts h
  | ended =>
    constructor
    · intro hreplays
      obtain ⟨launched, h⟩ := hkept.2.1 hreplays
      refine ⟨launched, h.history, h.ofLaunch, h.received, ?_⟩
      have hquiet : exportsOf (sendsOf launched) = [] := h.quiet
      rw [h.received, exportsOf_append, hquiet, List.nil_append]
      exact h.last
    · intro hnot
      obtain ⟨segment, h⟩ := hkept.2.2 hnot
      exact ⟨segment, h.history, h.block, h.received⟩
  | committed =>
    obtain ⟨segment, hsegment, hexports, -⟩ := hkept.last
    refine ⟨hkept.same, ?_⟩
    rw [hsegment, hexports]
    rfl
  | hostCommitted => exact hkept.same
  | idle => exact hkept.same

/-- A node is crash consistent in every run whose crashes are clean. -/
theorem crash_consistency (host : Host Params Chain) :
    ∀ s, (nodeSystem host).Reachable CleanCrash s → CrashConsistent host s := by
  intro s h
  apply Kept.crashConsistent
  apply h.invariant
  · rintro s rfl
    exact kept_init
  · exact fun s a t hs hclean hstep => hs.step hclean hstep

end Runs

section Counterexample

/-- A chain whose kernel exports its activity hash in every block. -/
def activityHost : Host Unit Unit where
  initialHeight := 1
  initialHeight_pos := by decide
  genesisHeight := 0
  blockTime height := 5 * height
  params _ := .ok ()
  upgradeDetails _ := none
  genesis := ()
  beginBlock _ chain := chain
  deliverTxs _ chain := chain
  agccSend chain _ := (chain, "true")
  coreProposals := []
  upgradeModifies _ := false
  extractCodeSteps _ := .ok []
  react _ input :=
    match input with
    | .endBlock blockHeight _ _ _ =>
      .noteExport ("kv.activityhash", some (toString blockHeight)) (.endCrank .done)
    | _ => .done

/-- The node executes its first block, and is restarted. -/
def restartActions : List NodeAction :=
  [.start, .beginBlock, .endBlock, .commitBlock, .commitChain, .afterCommitBlock, .crash, .start]

def executeActions : List NodeAction := [.beginBlock, .endBlock, .commitBlock]

def restarted : Node Unit Unit :=
  ((nodeSystem activityHost).runWhile CleanCrash { chain := () }
    (restartActions ++ executeActions ++ [.commitChain])).get (by decide +kernel)

theorem crash_consistency_restarted :
    restarted.blocks.length = 2 ∧ CrashConsistent activityHost restarted := by
  constructor
  · decide +kernel
  · apply crash_consistency
    exact .of_runWhile (.init rfl) (Option.some_get _).symm

theorem Committed.length_exports_le {host : Host Params Chain} {store : SwingStore Params}
    {blocks : List (List SavedChainSend)} {segments : List (History Params)}
    {launches : History Params} (h : Committed host store blocks segments launches) :
    (blocks.map exportsOf).flatten.length ≤ (historyExports store.history).length := by
  have hflatten : ∀ segments : List (History Params),
      historyExports segments.flatten = (segments.map historyExports).flatten := by
    intro segments
    induction segments with
    | nil => rfl
    | cons segment segments ih =>
      rw [List.flatten_cons, historyExports_append, ih, List.map_cons, List.flatten_cons]
  have hsplit : historyExports segments.flatten =
      (blocks.map exportsOf).flatten ++ historyExports (segments.drop blocks.length).flatten := by
    rw [h.exports, ← hflatten, ← historyExports_append, ← List.flatten_append,
      List.take_append_drop]
  rw [h.history, historyExports_append, hsplit, List.length_append, List.length_append]
  omega

/-- The node crashes between the commits of its second block, which is replayed. -/
def replayedTwice : Node Unit Unit :=
  ((nodeSystem activityHost).runWhile TransitionSystem.anyStep { chain := () }
    (restartActions ++ executeActions ++ [.crash, .start] ++ executeActions ++
      [.commitChain])).get (by decide +kernel)

/-- The second block is replayed with the export data of the first one. -/
theorem exports_replayed_twice :
    ∃ s, (nodeSystem activityHost).Reachable TransitionSystem.anyStep s ∧
      ¬ CrashConsistent activityHost s := by
  refine ⟨replayedTwice, .of_runWhile (.init rfl) (Option.some_get _).symm, ?_⟩
  rintro ⟨segments, launches, hcommitted, -⟩
  have hle := hcommitted.length_exports_le
  have hmore : (historyExports replayedTwice.store.history).length <
      (replayedTwice.blocks.map exportsOf).flatten.length := by
    decide +kernel
  omega

end Counterexample

end AgoricSdk.CosmicSwingset
