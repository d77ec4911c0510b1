import AgoricSdk.CosmicSwingset.Node

/-!
What the actions of a block do to the kernel. A process executes inputs, records what
the chain is sent for each, and leaves alone what it was launched with; the inputs of a
block are those of the launches before it, of its start, and of its end.
-/

namespace AgoricSdk.CosmicSwingset

variable {Params Chain : Type} (host : Host Params Chain)

section Blocks

/-- What is done to the kernel when a process is launched. -/
def IsLaunch (e : Execution Params) : Prop :=
  e.input = .initializeSwingset ∨ e.input = .upgradeSwingset

/-- The code of core proposals, to be evaluated in the block. -/
def CoreEvals (blockHeight : Nat) (coreProposals : List String) (evals : List ForcedAction) :
    Prop :=
  if coreProposals = [] then evals = []
  else ∃ codeSteps, host.extractCodeSteps coreProposals = .ok codeSteps ∧
    evals = codeSteps.map fun step => ForcedAction.coreEval blockHeight step.1 step.2

def updateInputs (updates : List String) : List (KernelInput Params) :=
  if updates = [] then [] else [.applyVatOptionUpdates updates]

def proposalInputs (coreProposals : List String) : List (KernelInput Params) :=
  if coreProposals = [] then [] else [.installBundles coreProposals]

/-- What is done before the block at a height: bootstrap before the first one, and what the
upgrade asks for before one that starts with an upgrade. -/
inductive Starts : Nat → List (KernelInput Params) → List ForcedAction → Prop where
  | bootstrap {params : Params} {evals : List ForcedAction} :
    host.params host.genesisHeight = .ok params →
    CoreEvals host host.genesisHeight host.coreProposals evals →
    Starts host.initialHeight
      (.bootstrapBlock host.genesisHeight (host.blockTime host.genesisHeight) params ::
        proposalInputs host.coreProposals) evals
  | upgrade {height : Nat} {details : UpgradeDetails} {info : PlanInfo}
      {evals : List ForcedAction} :
    host.initialHeight < height → host.upgradeDetails height = some details →
    details.planInfo = .ok info →
    CoreEvals host height (details.coreProposals ++ info.coreProposals) evals →
    Starts height (updateInputs (details.vatOptionUpdates ++ info.vatOptionUpdates) ++
      proposalInputs (details.coreProposals ++ info.coreProposals)) evals
  | ordinary {height : Nat} :
    host.initialHeight < height → host.upgradeDetails height = none → Starts height [] []

/-- The actions to be consumed in the block: those of a start, after events of the kernel. -/
def IsForced (evals runThisBlock : List ForcedAction) : Prop :=
  ∃ events : List ForcedAction, runThisBlock = events ++ evals ∧
    ∀ action ∈ events, ∃ height, action = .kernelUpgradeEvents height

/-- The execution of one block, after any launches of the process. -/
structure IsBlock (height : Nat) (segment : History Params) : Prop where
  parts : ∃ launches starts sends saves params evals runThisBlock,
    segment = launches ++ starts ++
      [{ input := .endBlock height (host.blockTime height) params runThisBlock, sends },
        { input := .saveChainState, sends := saves }] ∧
    (∀ e ∈ launches, IsLaunch e) ∧ Starts host height (starts.map Execution.input) evals ∧
    host.params height = .ok params ∧ IsForced evals runThisBlock

def sendsOf (history : History Params) : List SavedChainSend := history.flatMap Execution.sends

/-- The batches of export data sent while something was done to the kernel. -/
def historyExports (history : History Params) : List (List ExportUpdate) :=
  exportsOf (sendsOf history)

theorem historyExports_append (history history' : History Params) :
    historyExports (history ++ history') = historyExports history ++ historyExports history' := by
  unfold historyExports sendsOf
  rw [List.flatMap_append, exportsOf_append]

end Blocks

section Execution

variable {host} {m m' m'' : BlockManager Params Chain} {entries entries' : History Params}

/-- The process has executed the entries, and nothing else that matters later. -/
structure Extends (m m' : BlockManager Params Chain) (entries : History Params) : Prop where
  history : m'.store.history = m.store.history ++ entries
  saved : m'.savedChainSends = m.savedChainSends ++ sendsOf entries
  received : m'.received = m.received ++ sendsOf entries
  savedHeight : m'.savedHeight = m.savedHeight
  savedBeginHeight : m'.savedBeginHeight = m.savedBeginHeight
  inherited : m'.inherited = m.inherited
  allow : m'.allowExportCallback = m.allowExportCallback

theorem sendsOf_append (history history' : History Params) :
    sendsOf (history ++ history') = sendsOf history ++ sendsOf history' := List.flatMap_append

theorem Extends.refl (m : BlockManager Params Chain) : Extends m m [] where
  history := (List.append_nil _).symm
  saved := (List.append_nil _).symm
  received := (List.append_nil _).symm
  savedHeight := rfl
  savedBeginHeight := rfl
  inherited := rfl
  allow := rfl

theorem Extends.trans (h : Extends m m' entries) (h' : Extends m' m'' entries') :
    Extends m m'' (entries ++ entries') where
  history := by rw [h'.history, h.history, List.append_assoc]
  saved := by rw [h'.saved, h.saved, sendsOf_append, List.append_assoc]
  received := by rw [h'.received, h.received, sendsOf_append, List.append_assoc]
  savedHeight := h'.savedHeight.trans h.savedHeight
  savedBeginHeight := h'.savedBeginHeight.trans h.savedBeginHeight
  inherited := h'.inherited.trans h.inherited
  allow := h'.allow.trans h.allow

/-- Executing an input adds it with its sends; they are no export data while the callback is
not allowed. -/
theorem execute_ok {input : KernelInput Params} (h : execute host input m = .ok m') :
    ∃ sends, Extends m m' [{ input, sends }] ∧ m'.runThisBlock = m.runThisBlock ∧
      m'.bootstrapCoreProposals = m.bootstrapCoreProposals ∧
      m'.store.beginHeight = m.store.beginHeight ∧
      (m.allowExportCallback = false → exportsOf sends = []) := by
  unfold execute at h
  obtain ⟨⟨sends, calls⟩, hrun, h⟩ := bind_eq_ok.mp h
  cases h
  refine ⟨sends, ?_, rfl, rfl, rfl, ?_⟩
  · constructor
    case saved => rw [sendsOf, List.flatMap_singleton]
    case received => rw [sendsOf, List.flatMap_singleton]
    all_goals rfl
  · intro hallow
    rw [hallow] at hrun
    exact exportsOf_run _ hrun

end Execution

section Launches

variable {host} {m m' : BlockManager Params Chain} {launches : History Params}

/-- What a launch has done so far: it sends no export data. -/
structure Launching (m m' : BlockManager Params Chain) (launches : History Params) : Prop where
  extended : Extends m m' launches
  ofLaunch : ∀ e ∈ launches, IsLaunch e
  exports : historyExports launches = []
  forced : m'.runThisBlock = m.runThisBlock
  begun : m'.store.beginHeight = m.store.beginHeight

theorem Launching.refl (m : BlockManager Params Chain) : Launching m m [] where
  extended := .refl m
  ofLaunch := nofun
  exports := rfl
  forced := rfl
  begun := rfl

theorem launching_of_execute {input : KernelInput Params} (h : execute host input m = .ok m')
    (hallow : m.allowExportCallback = false)
    (hinput : input = .initializeSwingset ∨ input = .upgradeSwingset) :
    ∃ launches, Launching m m' launches ∧
      m'.bootstrapCoreProposals = m.bootstrapCoreProposals := by
  obtain ⟨sends, hextends, hforced, hproposals, hbegun, hsends⟩ := execute_ok h
  refine ⟨[{ input, sends }], ?_, hproposals⟩
  constructor
  case extended => exact hextends
  case ofLaunch =>
    intro e he
    rw [List.mem_singleton.mp he]
    exact hinput
  case exports =>
    unfold historyExports sendsOf
    rw [List.flatMap_singleton]
    exact hsends hallow
  case forced => exact hforced
  case begun => exact hbegun

theorem initializeSwingset_ok (h : initializeSwingset host m = .ok m')
    (hallow : m.allowExportCallback = false) :
    ∃ launches, Launching m m' launches ∧ m'.bootstrapCoreProposals =
      if m.store.history = [] then host.coreProposals else m.bootstrapCoreProposals := by
  unfold initializeSwingset at h
  split at h
  case isTrue hempty =>
    obtain ⟨launches, hlaunching, hproposals⟩ := launching_of_execute h hallow (.inl rfl)
    refine ⟨launches, { hlaunching with extended := { hlaunching.extended with } }, ?_⟩
    rw [hproposals, if_pos hempty]
  case isFalse hsome =>
    cases h
    exact ⟨[], .refl m, (if_neg hsome).symm⟩

theorem upgradeSwingset_ok (h : upgradeSwingset host m = .ok m')
    (hallow : m.allowExportCallback = false) :
    ∃ launches, Launching m m' launches ∧
      m'.bootstrapCoreProposals = m.bootstrapCoreProposals := by
  unfold upgradeSwingset at h
  split at h
  case isTrue =>
    obtain ⟨launches, hlaunching, hproposals⟩ := launching_of_execute h hallow (.inr rfl)
    exact ⟨launches, { hlaunching with extended := { hlaunching.extended with } }, hproposals⟩
  case isFalse =>
    cases h
    exact ⟨[], .refl m, rfl⟩

/-- A process just launched from the swing-store. -/
structure Launched (host : Host Params Chain) (store : SwingStore Params)
    (m : BlockManager Params Chain) (launches : History Params) : Prop where
  history : m.store.history = store.history ++ launches
  ofLaunch : ∀ e ∈ launches, IsLaunch e
  exports : historyExports launches = []
  received : m.received = sendsOf launches
  saved : m.savedChainSends = store.chainSends.getD []
  inherited : m.inherited = store.chainSends.getD []
  savedHeight : m.savedHeight = store.height.getD 0
  savedBeginHeight : m.savedBeginHeight = store.beginHeight.getD (store.height.getD 0)
  forced : m.runThisBlock = []
  begun : m.store.beginHeight = store.beginHeight
  proposals : m.bootstrapCoreProposals = if store.history = [] then host.coreProposals else []

theorem launch_ok {store : SwingStore Params} {chain : Chain}
    (h : launch host store chain = .ok m) : ∃ launches, Launched host store m launches := by
  unfold launch at h
  obtain ⟨m₁, hinitialize, h⟩ := bind_eq_ok.mp h
  obtain ⟨m₂, hupgrade, h⟩ := bind_eq_ok.mp h
  cases h
  obtain ⟨first, hfirst, hproposals⟩ := initializeSwingset_ok hinitialize rfl
  obtain ⟨second, hsecond, hproposals'⟩ := upgradeSwingset_ok hupgrade hfirst.extended.allow
  have hextends := hfirst.extended.trans hsecond.extended
  refine ⟨first ++ second, ?_⟩
  constructor
  case history => exact hextends.history
  case ofLaunch =>
    intro e he
    rcases List.mem_append.mp he with he | he
    · exact hfirst.ofLaunch e he
    · exact hsecond.ofLaunch e he
  case exports => rw [historyExports_append, hfirst.exports, hsecond.exports, List.append_nil]
  case received => exact hextends.received
  case saved => rfl
  case inherited => rfl
  case savedHeight => rfl
  case savedBeginHeight => rfl
  case forced => exact hsecond.forced.trans hfirst.forced
  case begun => exact hsecond.begun.trans hfirst.begun
  case proposals => exact hproposals'.trans hproposals

end Launches

section Starting

variable {host} {m m' m'' : BlockManager Params Chain} {entries entries' : History Params}
  {added added' : List ForcedAction} {height : Nat}

/-- A start has executed the entries and added actions to be consumed in the block. -/
structure Starting (m m' : BlockManager Params Chain) (entries : History Params)
    (added : List ForcedAction) : Prop where
  extended : Extends m m' entries
  forced : m'.runThisBlock = m.runThisBlock ++ added

theorem Starting.refl (m : BlockManager Params Chain) : Starting m m [] [] where
  extended := .refl m
  forced := (List.append_nil _).symm

theorem Starting.trans (h : Starting m m' entries added) (h' : Starting m' m'' entries' added') :
    Starting m m'' (entries ++ entries') (added ++ added') where
  extended := h.extended.trans h'.extended
  forced := by rw [h'.forced, h.forced, List.append_assoc]

theorem saveBeginHeight_extends (m : BlockManager Params Chain) :
    Extends m (saveBeginHeight m.savedBeginHeight m) [] where
  history := (List.append_nil _).symm
  saved := (List.append_nil _).symm
  received := (List.append_nil _).symm
  savedHeight := rfl
  savedBeginHeight := rfl
  inherited := rfl
  allow := rfl

theorem insist_eq_ok {p : Prop} [Decidable p] {message : String} :
    insist p message = .ok () ↔ p := by
  unfold insist
  split
  case isTrue h => exact ⟨fun _ => h, fun _ => rfl⟩
  case isFalse h => exact ⟨nofun, fun hp => absurd hp h⟩

theorem doVatOptionUpdates_ok {isBootstrap : Bool} {upgradeDetails : Option UpgradeDetails}
    {updates : List String}
    (h : doVatOptionUpdates host isBootstrap upgradeDetails updates m = .ok m') :
    ∃ entries, Starting m m' entries [] ∧ entries.map Execution.input = updateInputs updates ∧
      m'.bootstrapCoreProposals = m.bootstrapCoreProposals := by
  unfold doVatOptionUpdates at h
  unfold updateInputs
  split at h
  case isTrue hnone =>
    cases h
    exact ⟨[], .refl m, (if_pos hnone).symm, rfl⟩
  case isFalse hsome =>
    obtain ⟨-, -, h⟩ := bind_eq_ok.mp h
    obtain ⟨sends, hextends, hforced, hproposals, -, -⟩ := execute_ok h
    refine ⟨[{ input := .applyVatOptionUpdates updates, sends }], ⟨hextends, ?_⟩,
      (if_neg hsome).symm, hproposals⟩
    rw [hforced, List.append_nil]

theorem doBootstrap_ok (h : doBootstrap host height m = .ok m') :
    m.savedHeight = 0 ∧ ∃ params entries, host.params height = .ok params ∧
      Starting m m' entries [] ∧
      entries.map Execution.input = [.bootstrapBlock height (host.blockTime height) params] ∧
      m'.bootstrapCoreProposals = m.bootstrapCoreProposals := by
  unfold doBootstrap at h
  obtain ⟨⟨⟩, hzero, h⟩ := bind_eq_ok.mp h
  obtain ⟨params, hparams, h⟩ := bind_eq_ok.mp h
  obtain ⟨sends, hextends, hforced, hproposals, -, -⟩ := execute_ok h
  refine ⟨(insist_eq_ok.mp hzero).1, params,
    [{ input := .bootstrapBlock height (host.blockTime height) params, sends }], hparams,
    ⟨(saveBeginHeight_extends m).trans hextends, ?_⟩, rfl, hproposals⟩
  rw [hforced, List.append_nil]
  rfl

theorem doUpgradeEvents_ok {consensusStart : Prop} [Decidable consensusStart]
    (h : doUpgradeEvents height consensusStart m = .ok m') :
    ∃ events, Starting m m' [] events ∧ (∀ action ∈ events, ∃ height,
        action = .kernelUpgradeEvents height) ∧
      m'.bootstrapCoreProposals = m.bootstrapCoreProposals ∧ (events ≠ [] → consensusStart) := by
  unfold doUpgradeEvents at h
  split at h
  case isTrue =>
    obtain ⟨⟨⟩, hconsensus, h⟩ := bind_eq_ok.mp h
    cases h
    refine ⟨[.kernelUpgradeEvents height], ⟨{ Extends.refl m with }, rfl⟩, ?_, rfl,
      fun _ => insist_eq_ok.mp hconsensus⟩
    intro action haction
    exact ⟨height, List.mem_singleton.mp haction⟩
  case isFalse =>
    cases h
    exact ⟨[], .refl m, nofun, rfl, fun hne => absurd rfl hne⟩

theorem doCoreProposals_ok {consensusStart : Prop} [Decidable consensusStart]
    {coreProposals : List String}
    (h : doCoreProposals host height consensusStart coreProposals m = .ok m') :
    ∃ entries evals, Starting m m' entries evals ∧
      entries.map Execution.input = proposalInputs coreProposals ∧
      CoreEvals host height coreProposals evals ∧ (coreProposals ≠ [] → consensusStart) := by
  unfold doCoreProposals at h
  unfold proposalInputs CoreEvals
  split at h
  case isTrue hnone =>
    cases h
    refine ⟨[], [], .refl m, (if_pos hnone).symm, ?_, fun hsome => absurd hnone hsome⟩
    rw [if_pos hnone]
  case isFalse hsome =>
    obtain ⟨⟨⟩, hconsensus, h⟩ := bind_eq_ok.mp h
    obtain ⟨codeSteps, hsteps, h⟩ := bind_eq_ok.mp h
    obtain ⟨m₁, hexecute, h⟩ := bind_eq_ok.mp h
    cases h
    obtain ⟨sends, hextends, hforced, -, -, -⟩ := execute_ok hexecute
    have hall := (saveBeginHeight_extends m).trans hextends
    refine ⟨[{ input := .installBundles coreProposals, sends }],
      codeSteps.map fun step => ForcedAction.coreEval height step.1 step.2, ⟨{ hall with }, ?_⟩,
      (if_neg hsome).symm, ?_, fun _ => insist_eq_ok.mp hconsensus⟩
    · dsimp only
      rw [hforced]
      rfl
    · rw [if_neg hsome]
      exact ⟨codeSteps, hsteps, rfl⟩

theorem blockNeedsExecution_ok {needsExecution : Bool}
    (h : blockNeedsExecution m height = .ok needsExecution) :
    if needsExecution then m.savedHeight = 0 ∨ height = m.savedHeight + 1
    else m.savedHeight ≠ 0 ∧ height = m.savedHeight := by
  unfold blockNeedsExecution at h
  split at h
  case isTrue hzero =>
    cases h
    exact .inl hzero
  case isFalse hzero =>
    split at h
    case isTrue hnext =>
      cases h
      exact .inr hnext
    case isFalse =>
      split at h
      case isTrue hsame =>
        cases h
        exact ⟨hzero, hsame⟩
      case isFalse => cases h

/-- The input of the bootstrap block, where there is one. -/
def BootstrapInputs (host : Host Params Chain) (isBootstrap : Bool) (height : Nat)
    (inputs : List (KernelInput Params)) : Prop :=
  if isBootstrap then ∃ params, host.params height = .ok params ∧
    inputs = [.bootstrapBlock height (host.blockTime height) params]
  else inputs = []

theorem cosmosInit_ok {isBootstrap : Bool} {upgradeDetails : Option UpgradeDetails}
    (h : cosmosInit host height isBootstrap upgradeDetails m = .ok m') :
    (m.savedHeight ≠ 0 ∧ height = m.savedHeight ∧ m' = { m with allowExportCallback := true }) ∨
    ((m.savedHeight = 0 ∨ height = m.savedHeight + 1) ∧ (isBootstrap = true → m.savedHeight = 0) ∧
      ∃ info boot entries events evals,
        upgradeDetails.elim (.ok {}) UpgradeDetails.planInfo = .ok info ∧
        BootstrapInputs host isBootstrap height boot ∧
        Starting { m with allowExportCallback := true } m' entries (events ++ evals) ∧
        (∀ action ∈ events, ∃ height, action = .kernelUpgradeEvents height) ∧
        CoreEvals host height (m.bootstrapCoreProposals ++
          upgradeDetails.elim [] UpgradeDetails.coreProposals ++ info.coreProposals) evals ∧
        entries.map Execution.input = updateInputs
            (upgradeDetails.elim [] UpgradeDetails.vatOptionUpdates ++ info.vatOptionUpdates) ++
          boot ++ proposalInputs (m.bootstrapCoreProposals ++
            upgradeDetails.elim [] UpgradeDetails.coreProposals ++ info.coreProposals)) := by
  unfold cosmosInit at h
  obtain ⟨needsExecution, hneeds, h⟩ := bind_eq_ok.mp h
  have hspec := blockNeedsExecution_ok hneeds
  cases needsExecution with
  | false =>
    cases h
    exact .inl ⟨hspec.1, hspec.2, rfl⟩
  | true =>
    obtain ⟨info, hinfo, h⟩ := bind_eq_ok.mp h
    obtain ⟨m₁, hupdates, h⟩ := bind_eq_ok.mp h
    obtain ⟨first, hfirst, hinputs, hproposals⟩ := doVatOptionUpdates_ok hupdates
    obtain ⟨m₂, hboot, h⟩ := bind_eq_ok.mp h
    obtain ⟨m₃, hevents, h⟩ := bind_eq_ok.mp h
    obtain ⟨events, hthird, hactions, hproposals₃, -⟩ := doUpgradeEvents_ok hevents
    obtain ⟨boot, second, hsecond, hbootInputs, hsame, hbootstrap, hproposals₂⟩ :
        ∃ boot second, Starting m₁ m₂ second [] ∧
          second.map Execution.input = boot ∧ (isBootstrap = true → m₁.savedHeight = 0) ∧
          BootstrapInputs host isBootstrap height boot ∧
          m₂.bootstrapCoreProposals = m₁.bootstrapCoreProposals := by
      unfold BootstrapInputs
      cases isBootstrap with
      | true =>
        obtain ⟨hzero, params, second, hparams, hsecond, hinputs, hproposals⟩ := doBootstrap_ok hboot
        exact ⟨_, second, hsecond, hinputs, fun _ => hzero, ⟨params, hparams, rfl⟩, hproposals⟩
      | false =>
        cases hboot
        exact ⟨[], [], .refl _, rfl, nofun, rfl, rfl⟩
    obtain ⟨last, evals, hlast, hlastInputs, hevals, -⟩ := doCoreProposals_ok h
    rw [hproposals₃, hproposals₂, hproposals] at hlastInputs hevals
    have hall := ((hfirst.trans hsecond).trans hthird).trans hlast
    refine .inr ⟨hspec, ?_, info, boot, _, events, evals, hinfo, hbootstrap, hall, hactions,
      hevals, ?_⟩
    · exact fun hgenesis => hfirst.extended.savedHeight.symm.trans (hsame hgenesis)
    · rw [List.map_append, List.map_append, List.map_append, hinputs, hbootInputs, hlastInputs,
        List.map_nil, List.append_nil]

theorem cosmosInit_genesis (h : cosmosInit host host.genesisHeight true none m = .ok m')
    (hproposals : m.savedHeight = 0 → m.bootstrapCoreProposals = host.coreProposals) :
    (m.savedHeight ≠ 0 ∧ m' = { m with allowExportCallback := true }) ∨
    (m.savedHeight = 0 ∧ ∃ entries events evals,
      Starting { m with allowExportCallback := true } m' entries (events ++ evals) ∧
      (∀ action ∈ events, ∃ height, action = .kernelUpgradeEvents height) ∧
      Starts host host.initialHeight (entries.map Execution.input) evals) := by
  rcases cosmosInit_ok h with ⟨hne, -, heq⟩ | ⟨-, hzero, info, boot, entries, events, evals, hinfo,
    ⟨params, hparams, rfl⟩, hstarting, hactions, hevals, hinputs⟩
  · exact .inl ⟨hne, heq⟩
  · cases hinfo
    rw [hproposals (hzero rfl)] at hevals hinputs
    simp only [Option.elim_none, List.append_nil] at hevals hinputs
    refine .inr ⟨hzero rfl, entries, events, evals, hstarting, hactions, ?_⟩
    rw [hinputs]
    exact .bootstrap hparams hevals

theorem cosmosInit_later
    (h : cosmosInit host height false (host.upgradeDetails height) m = .ok m')
    (hproposals : m.bootstrapCoreProposals = []) (hheight : host.initialHeight < height) :
    (m.savedHeight ≠ 0 ∧ height = m.savedHeight ∧ m' = { m with allowExportCallback := true }) ∨
    ((m.savedHeight = 0 ∨ height = m.savedHeight + 1) ∧ ∃ entries events evals,
      Starting { m with allowExportCallback := true } m' entries (events ++ evals) ∧
      (∀ action ∈ events, ∃ height, action = .kernelUpgradeEvents height) ∧
      Starts host height (entries.map Execution.input) evals) := by
  rcases cosmosInit_ok h with hskip | ⟨hneeds, -, info, boot, entries, events, evals, hinfo,
    hboot, hstarting, hactions, hevals, hinputs⟩
  · exact .inl hskip
  · refine .inr ⟨hneeds, entries, events, evals, hstarting, hactions, ?_⟩
    cases hboot
    rw [hproposals, List.append_nil, List.nil_append] at hinputs
    rw [hproposals, List.nil_append] at hevals
    rw [hinputs]
    cases hupgrade : host.upgradeDetails height with
    | none =>
      rw [hupgrade] at hinfo hevals
      cases hinfo
      cases hevals
      exact .ordinary hheight hupgrade
    | some details =>
      rw [hupgrade] at hinfo hevals
      exact .upgrade hheight hupgrade hinfo hevals

end Starting

section Actions

variable {host} {m m' : BlockManager Params Chain} {height : Nat}

theorem beginBlock_ok (h : beginBlock host height m = .ok m') :
    ∃ params, host.params height = .ok params ∧
      ((m.savedHeight ≠ 0 ∧ height = m.savedHeight ∧
        m' = { m with allowExportCallback := true, blockParams := some params }) ∨
      ((m.savedHeight = 0 ∨ height = m.savedHeight + 1) ∧
        m' = saveBeginHeight height
          { m with allowExportCallback := true, blockParams := some params })) := by
  unfold beginBlock at h
  obtain ⟨params, hparams, h⟩ := bind_eq_ok.mp h
  obtain ⟨needsExecution, hneeds, h⟩ := bind_eq_ok.mp h
  have hspec := blockNeedsExecution_ok hneeds
  refine ⟨params, hparams, ?_⟩
  cases needsExecution with
  | false =>
    cases h
    exact .inl ⟨hspec.1, hspec.2, rfl⟩
  | true =>
    obtain ⟨-, -, h⟩ := bind_eq_ok.mp h
    cases h
    exact .inr ⟨hspec, rfl⟩

theorem replayChainSends_ok (h : replayChainSends host m = .ok m') :
    ∃ chain, m' = { m with
      chain
      received := m.received ++ m.savedChainSends
      inherited := [] } := by
  unfold replayChainSends at h
  obtain ⟨chain, -, h⟩ := bind_eq_ok.mp h
  cases h
  exact ⟨chain, rfl⟩

theorem endBlock_ok {params : Params} (hparams : m.blockParams = some params)
    (h : endBlock host height m = .ok m') :
    (m.savedHeight ≠ 0 ∧ height = m.savedHeight ∧ replayChainSends host m = .ok m') ∨
    ((m.savedHeight = 0 ∨ height = m.savedHeight + 1) ∧ ∃ sends saves m₁,
      Extends m m₁ [{ input := .endBlock height (host.blockTime height) params m.runThisBlock, sends },
        { input := .saveChainState, sends := saves }] ∧
      m₁.store.beginHeight = m.store.beginHeight ∧ m₁.runThisBlock = [] ∧
      m' = { m₁ with savedHeight := height }) := by
  unfold endBlock at h
  rw [hparams] at h
  obtain ⟨needsExecution, hneeds, h⟩ := bind_eq_ok.mp h
  have hspec := blockNeedsExecution_ok hneeds
  cases needsExecution with
  | false => exact .inl ⟨hspec.1, hspec.2, h⟩
  | true =>
    obtain ⟨-, -, h⟩ := bind_eq_ok.mp h
    obtain ⟨m₁, hexecute, h⟩ := bind_eq_ok.mp h
    obtain ⟨m₂, hsave, h⟩ := bind_eq_ok.mp h
    cases h
    obtain ⟨sends, hfirst, -, -, hbegun, -⟩ := execute_ok hexecute
    obtain ⟨saves, hsecond, hforced, -, hbegun', -⟩ := execute_ok hsave
    refine .inr ⟨hspec, sends, saves, m₂, ?_, hbegun'.trans hbegun, hforced, rfl⟩
    exact hfirst.trans { hsecond with }

theorem commitBlock_ok (h : commitBlock host height m = .ok m') :
    height = m.savedHeight ∧ m.runThisBlock = [] ∧ m' = { m with
      allowExportCallback := false
      blockParams := none
      savedChainSends := []
      store := { m.store with height := some height, chainSends := some m.savedChainSends }
      pendingCommitKit := true } := by
  unfold commitBlock at h
  obtain ⟨⟨⟩, hheight, h⟩ := bind_eq_ok.mp h
  obtain ⟨⟨⟩, hforced, h⟩ := bind_eq_ok.mp h
  obtain ⟨m₁, hsave, h⟩ := bind_eq_ok.mp h
  unfold saveOutsideState at hsave
  obtain ⟨⟨sends, calls⟩, hflush, hsave⟩ := bind_eq_ok.mp hsave
  obtain ⟨-, rfl⟩ := exportsOf_flush hflush
  cases hsave
  cases h
  exact ⟨insist_eq_ok.mp hheight, insist_eq_ok.mp hforced, rfl⟩

end Actions

end AgoricSdk.CosmicSwingset
