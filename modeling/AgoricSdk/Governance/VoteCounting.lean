import AgoricSdk.Governance.Tally

/-!
Vote counting is sound. What counts is the last ballot of each voter that was recorded
before the first close; that close fixes the statistics and the outcome, and one record of
the outcome is published. Ballots that name a position twice count twice, and nothing keeps
the voting from being closed again: runs in which neither matters are considered.
-/

namespace AgoricSdk.Governance

variable {P V : Type} [DecidableEq P] [DecidableEq V]

section Kinds

/-- What the runs of a counter rest on. -/
structure Decides (c : VoteCounter P) : Prop where
  legal : ∀ chosen, c.checkBallot chosen = .ok () → ∀ p ∈ chosen, p ∈ c.spec.positions
  keeps : ∀ random results, (c.conclude random results).1.Perm results
  sound : ∀ random total, SoundWinners c.spec total
    (c.conclude random (resultsOf c.spec.positions total)).2

variable {spec : QuestionSpec P} {threshold : Int} {c : VoteCounter P}

theorem positionIncluded_iff {positions : List P} {p : P} :
    positionIncluded positions p = true ↔ p ∈ positions := by
  unfold positionIncluded
  simp

theorem coerceQuestionSpec_ok (h : coerceQuestionSpec spec = .ok ()) :
    1 ≤ spec.maxWinners ∧ spec.tieOutcome ∈ spec.positions := by
  unfold coerceQuestionSpec at h
  split at h
  case isTrue => cases h
  case isFalse hshape =>
    split at h
    case isTrue => cases h
    case isFalse htie =>
      rw [not_not] at hshape htie
      refine ⟨?_, htie⟩
      unfold QuestionSpec.matchesShape at hshape
      cases hkind : spec.electionType <;> rw [hkind] at hshape <;>
        have hfields := of_decide_eq_true hshape
      case paramChange => exact hfields.2.2.2.1.ge
      case election => exact hfields.2
      case survey => exact hfields.2
      case apiInvocation => exact hfields.2.2.ge
      case offerFilter => exact hfields.2.2.ge

omit [DecidableEq P] in
theorem descending_sortResults (results : List (PositionTotal P)) :
    Descending (sortResults results) := by
  have htotal : Std.Total fun a b : PositionTotal P => b.total ≤ a.total :=
    ⟨fun a b => Nat.le_total b.total a.total⟩
  have htrans : IsTrans (PositionTotal P) fun a b => b.total ≤ a.total :=
    ⟨fun a b c hab hbc => Nat.le_trans hbc hab⟩
  exact List.pairwise_insertionSort _ results

theorem makeMultiCandidateVoteCounter_decides
    (h : makeMultiCandidateVoteCounter spec threshold = .ok c) : Decides c := by
  obtain ⟨⟨⟩, hvalid, hmake⟩ := bind_eq_ok.mp h
  obtain ⟨⟨⟩, hcoerce, -⟩ := bind_eq_ok.mp hvalid
  obtain ⟨hmax, htie⟩ := coerceQuestionSpec_ok hcoerce
  cases hmake
  constructor
  case legal =>
    intro chosen hcheck p hp
    dsimp only at hcheck
    unfold checkChoices at hcheck
    split at hcheck
    · cases hcheck
    · split at hcheck
      · cases hcheck
      case isFalse hall =>
        rw [not_not] at hall
        exact positionIncluded_iff.mp (List.all_eq_true.mp hall p hp)
  case keeps => exact fun _ results => List.perm_insertionSort _ results
  case sound =>
    intro random total
    have hperm : (sortResults (resultsOf spec.positions total)).Perm
        (resultsOf spec.positions total) := List.perm_insertionSort _ _
    dsimp only
    rcases winnersOf_spec random spec hmax (descending_sortResults _) with
      ⟨hzero, hwinners⟩ | ⟨chosen, hwinners, hchosen⟩
    · rw [hwinners]
      apply soundWinners_of_zero hmax htie
      exact fun p hp => hzero ⟨p, total p⟩ (hperm.mem_iff.mpr (first_mem hp))
    · rw [hwinners]
      exact soundWinners_of_chosen hperm hchosen

theorem resultsOf_pair (p q : P) (total : P → Nat) : resultsOf [p, q] total =
    [⟨p, total p⟩, ⟨q, if p = q then 0 else total q⟩] := by
  unfold resultsOf index
  by_cases hpq : p = q
  · simp [hpq, List.findIdx?_cons]
  · simp [hpq, List.findIdx?_cons]

theorem binaryOutcome_sound {p q : P} (hpositions : spec.positions = [p, q])
    (hmax : 1 ≤ spec.maxWinners) (htie : spec.tieOutcome ∈ spec.positions) (total : P → Nat) :
    SoundWinners spec total (binaryOutcome spec (resultsOf spec.positions total)) := by
  -- In all cases one position wins that the other does not exceed.
  have hone : ∀ w ∈ spec.positions, (∀ x ∈ spec.positions, total x ≤ total w) →
      ((∀ x ∈ spec.positions, total x = 0) → w = spec.tieOutcome) →
        SoundWinners spec total [w] := by
    intro w hw hbest hzero
    constructor
    case atMost => exact hmax
    case distinct => exact List.nodup_singleton w
    case legal => exact fun x hx => List.mem_singleton.mp hx ▸ hw
    case outranks => exact fun x hx _ y hy => List.mem_singleton.mp hy ▸ hbest x hx
    case positive =>
      rintro ⟨x, hx, hpos⟩
      refine ⟨List.cons_ne_nil _ _, fun y hy => ?_⟩
      rw [List.mem_singleton.mp hy]
      exact hpos.trans_le (hbest x hx)
    case tie => exact fun hall => by rw [hzero hall]
  rw [hpositions] at hone htie ⊢
  rw [resultsOf_pair]
  unfold binaryOutcome
  dsimp only
  have hp : p ∈ [p, q] := List.mem_cons_self
  have hq : q ∈ [p, q] := List.mem_cons_of_mem _ (List.mem_singleton_self q)
  by_cases hfirst : (if p = q then 0 else total q) < total p
  · rw [if_pos hfirst]
    apply hone p hp
    · intro x hx
      rcases List.mem_pair.mp hx with rfl | rfl
      · exact le_rfl
      · split at hfirst
        case isTrue heq => rw [heq]
        case isFalse => omega
    · intro hall
      rw [hall p hp] at hfirst
      omega
  · rw [if_neg hfirst]
    by_cases hsecond : total p < if p = q then 0 else total q
    · rw [if_pos hsecond]
      have hne : p ≠ q := by
        intro heq
        rw [if_pos heq] at hsecond
        omega
      rw [if_neg hne] at hsecond
      apply hone q hq
      · intro x hx
        rcases List.mem_pair.mp hx with rfl | rfl
        · exact hsecond.le
        · exact le_rfl
      · intro hall
        rw [hall q hq] at hsecond
        omega
    · rw [if_neg hsecond]
      apply hone spec.tieOutcome htie _ fun _ => rfl
      have hequal : total p = total q := by
        split at hfirst
        case isTrue heq => rw [heq]
        case isFalse hne =>
          rw [if_neg hne] at hsecond
          omega
      intro x hx
      have hx' : total x = total p := by
        rcases List.mem_pair.mp hx with rfl | rfl
        · rfl
        · exact hequal.symm
      have htie' : total spec.tieOutcome = total p := by
        rcases List.mem_pair.mp htie with heq | heq
        · rw [heq]
        · rw [heq, hequal]
      rw [hx', htie']

theorem makeBinaryVoteCounter_decides (h : makeBinaryVoteCounter spec threshold = .ok c) :
    Decides c := by
  obtain ⟨⟨⟩, hvalid, hmake⟩ := bind_eq_ok.mp h
  obtain ⟨⟨⟩, hcoerce, hrest⟩ := bind_eq_ok.mp hvalid
  obtain ⟨hmax, htie⟩ := coerceQuestionSpec_ok hcoerce
  have hlength : spec.positions.length = 2 := by
    by_contra hne
    rw [if_pos hne] at hrest
    cases hrest
  obtain ⟨p, q, hpositions⟩ := List.length_eq_two.mp hlength
  cases hmake
  constructor
  case legal =>
    intro chosen hcheck r hr
    dsimp only at hcheck
    unfold checkChoice at hcheck
    split at hcheck
    case h_1 position =>
      split at hcheck
      case isTrue hincluded =>
        rw [List.mem_singleton.mp hr]
        exact positionIncluded_iff.mp hincluded
      case isFalse => cases hcheck
    case h_2 => cases hcheck
  case keeps => exact fun _ results => .refl _
  case sound => exact fun _ total => binaryOutcome_sound hpositions hmax htie total

end Kinds

section Runs

variable {c : VoteCounter P} {s t : CounterState V P}

def CounterAction.IsClose : CounterAction V P → Prop
  | .closeVoting _ => True
  | _ => False

/-- The ballot of the voter that is recorded, if the action is one. -/
def CounterAction.ballotOf (c : VoteCounter P) (voter : V) :
    CounterAction V P → Option (RecordedBallot P)
  | .submitVote voterHandle chosen shares =>
    if voterHandle = voter ∧ (c.checkBallot chosen).isOk then some { chosen, shares } else none
  | _ => none

def lastBallot (c : VoteCounter P) (voter : V) (actions : List (CounterAction V P)) :
    Option (RecordedBallot P) :=
  (actions.filterMap fun action => action.ballotOf c voter).getLast?

/-- When voting is closed, no ballot counts for a position more than once; it is closed
again at most when it had no quorum and would have one now. -/
def Untroubled (c : VoteCounter P) (s : CounterState V P) : CounterAction V P → Prop
  | .closeVoting _ =>
    if s.isOpen then ∀ ballot ∈ s.allBallots.values, CountsOnce ballot
    else s.outcome = .rejected "No quorum" ∧
      checkQuorum c.threshold (voteStatistics c.spec.positions s.allBallots.values) = true
  | _ => True

instance (c : VoteCounter P) (s : CounterState V P) (action : CounterAction V P) :
    Decidable (Untroubled c s action) := by
  unfold Untroubled
  split <;> infer_instance

/-- Nothing is decided before the voting is closed. -/
structure Undecided (c : VoteCounter P) (s : CounterState V P) : Prop where
  isOpen : s.isOpen = true
  tally : s.tally = none
  outcome : s.outcome = .unsettled
  waiting : s.waiting = 0
  published : s.published = []
  legal : ∀ ballot ∈ s.allBallots.values, ∀ p ∈ ballot.chosen, p ∈ c.spec.positions

/-- What the ballots decide: the statistics, the outcome and the one record of it. -/
structure Decided (c : VoteCounter P) (ballots : Record V (RecordedBallot P))
    (s : CounterState V P) : Prop where
  isClosed : s.isOpen = false
  tally : ∃ stats, s.tally = some stats ∧ stats.spoiled = 0 ∧
    stats.votes = ballots.values.length ∧
    stats.results.Perm (resultsOf c.spec.positions (sharesFor ballots.values))
  outcome :
    if c.threshold ≤ ((resultsOf c.spec.positions (sharesFor ballots.values)).map
        PositionTotal.total).sum then
      ∃ winners, s.outcome = .fulfilled winners ∧
        SoundWinners c.spec (sharesFor ballots.values) winners ∧
        s.published.length + s.waiting = 1 ∧ ∀ r ∈ s.published, r = .win winners
    else s.outcome = .rejected "No quorum" ∧ s.published = [.fail "No quorum"] ∧ s.waiting = 0

theorem Undecided.step (h : Undecided c s) (hc : Decides c) {action : CounterAction V P}
    (hopen : ¬ action.IsClose) (hstep : counterStep c s action = some t) :
    Undecided c t ∧
      ∀ voter, t.allBallots.get voter = (action.ballotOf c voter).or (s.allBallots.get voter) := by
  cases action with
  | closeVoting random => exact absurd trivial hopen
  | publishOutcome =>
    unfold counterStep VoteCounter.publishOutcome at hstep
    rw [h.waiting] at hstep
    cases hstep
  | submitVote voterHandle chosen shares =>
    unfold counterStep VoteCounter.submitVote at hstep
    dsimp only at hstep
    cases hcheck : c.checkBallot chosen with
    | error message =>
      rw [hcheck] at hstep
      cases hstep
      refine ⟨h, fun voter => ?_⟩
      have hnone : CounterAction.ballotOf c voter (.submitVote voterHandle chosen shares) = none := by
        dsimp only [CounterAction.ballotOf]
        rw [hcheck]
        exact if_neg fun hboth => Bool.false_ne_true hboth.2
      rw [hnone, Option.none_or]
    | ok u =>
      rw [hcheck] at hstep
      cases hstep
      constructor
      · exact { h with
          legal := by
            intro ballot hballot
            obtain ⟨voter, hget⟩ := Record.exists_get_of_mem_values hballot
            rw [Record.get_set] at hget
            split at hget
            · cases hget
              exact hc.legal chosen hcheck
            · exact h.legal ballot (Record.mem_values_of_get hget) }
      · intro voter
        dsimp only
        rw [Record.get_set]
        unfold CounterAction.ballotOf
        dsimp only
        rw [hcheck]
        by_cases hvoter : voter = voterHandle
        · rw [if_pos hvoter, if_pos ⟨hvoter.symm, rfl⟩, Option.some_or]
        · rw [if_neg hvoter, if_neg fun hboth => hvoter hboth.1.symm, Option.none_or]

omit [DecidableEq P] in
theorem lastBallot_cons (action : CounterAction V P) (actions : List (CounterAction V P))
    (voter : V) (ballot : Option (RecordedBallot P)) :
    (lastBallot c voter (action :: actions)).or ballot =
      (lastBallot c voter actions).or ((action.ballotOf c voter).or ballot) := by
  unfold lastBallot
  rw [List.filterMap_cons]
  cases action.ballotOf c voter with
  | none => rw [Option.none_or]
  | some b =>
    rw [List.getLast?_cons]
    cases (actions.filterMap fun action => action.ballotOf c voter).getLast? <;> rfl

theorem Undecided.run (h : Undecided c s) (hc : Decides c) {actions : List (CounterAction V P)}
    (hopen : ∀ action ∈ actions, ¬ action.IsClose)
    (hrun : (voteCounting V c).runWhile (Untroubled c) s actions = some t) :
    Undecided c t ∧
      ∀ voter, t.allBallots.get voter =
        (lastBallot c voter actions).or (s.allBallots.get voter) := by
  induction actions generalizing s with
  | nil =>
    cases hrun
    exact ⟨h, fun voter => rfl⟩
  | cons action actions ih =>
    obtain ⟨hfirst, hrest⟩ := List.forall_mem_cons.mp hopen
    obtain ⟨-, hrun⟩ := Option.ite_none_right_eq_some.mp hrun
    obtain ⟨u, hstep, hrun⟩ := Option.bind_eq_some_iff.mp hrun
    obtain ⟨hu, hballots⟩ := h.step hc hfirst hstep
    obtain ⟨ht, hlast⟩ := ih hu hrest hrun
    refine ⟨ht, fun voter => ?_⟩
    rw [hlast, hballots, lastBallot_cons]

omit [DecidableEq V] in
/-- The first close decides. -/
theorem Undecided.close (h : Undecided c s) (hc : Decides c) (random : Nat → Draw)
    (honce : ∀ ballot ∈ s.allBallots.values, CountsOnce ballot) :
    Decided c s.allBallots (c.closeVoting random s) := by
  have hresults : (voteStatistics c.spec.positions s.allBallots.values).results =
      resultsOf c.spec.positions (sharesFor s.allBallots.values) := voteStatistics_results honce
  have hspoiled : (voteStatistics c.spec.positions s.allBallots.values).spoiled = 0 :=
    foldl_countBallot_spoiled _ h.legal
  have hvotes : (voteStatistics c.spec.positions s.allBallots.values).votes =
    s.allBallots.values.length := rfl
  unfold VoteCounter.closeVoting VoteCounter.countVotes
  dsimp only
  by_cases hquorum : c.threshold ≤ ((resultsOf c.spec.positions
      (sharesFor s.allBallots.values)).map PositionTotal.total).sum
  · have hcheck : checkQuorum c.threshold
        (voteStatistics c.spec.positions s.allBallots.values) = true := by
      unfold checkQuorum
      rw [hresults]
      exact decide_eq_true hquorum
    rw [if_neg (not_not.mpr hcheck), h.tally, h.outcome, h.waiting, h.published, hresults]
    constructor
    case isClosed => rfl
    case tally => exact ⟨_, rfl, hspoiled, hvotes, hc.keeps random _⟩
    case outcome =>
      rw [if_pos hquorum]
      exact ⟨_, rfl, hc.sound random _, rfl, nofun⟩
  · have hcheck : ¬ checkQuorum c.threshold
        (voteStatistics c.spec.positions s.allBallots.values) = true := by
      unfold checkQuorum
      rw [hresults]
      exact fun hdecide => hquorum (of_decide_eq_true hdecide)
    rw [if_pos hcheck, h.tally, h.outcome, h.published]
    constructor
    case isClosed => rfl
    case tally =>
      refine ⟨_, rfl, hspoiled, hvotes, ?_⟩
      rw [hresults]
    case outcome =>
      rw [if_neg hquorum]
      exact ⟨rfl, rfl, h.waiting⟩

theorem Decided.step {ballots : Record V (RecordedBallot P)} (h : Decided c ballots s)
    {action : CounterAction V P} (hok : Untroubled c s action)
    (hstep : counterStep c s action = some t) :
    Decided c ballots t ∧ t.tally = s.tally ∧ t.outcome = s.outcome := by
  cases action with
  | submitVote voterHandle chosen shares =>
    unfold counterStep VoteCounter.submitVote at hstep
    dsimp only at hstep
    cases hcheck : c.checkBallot chosen with
    | error message =>
      rw [hcheck] at hstep
      cases hstep
      exact ⟨h, rfl, rfl⟩
    | ok u =>
      rw [hcheck] at hstep
      cases hstep
      exact ⟨{ h with }, rfl, rfl⟩
  | closeVoting random =>
    unfold Untroubled at hok
    dsimp only at hok
    rw [h.isClosed, if_neg Bool.false_ne_true] at hok
    obtain ⟨houtcome, hquorum⟩ := hok
    cases hstep
    obtain ⟨stats, hstats, hrest⟩ := h.tally
    have hsame : c.closeVoting random s = s := by
      unfold VoteCounter.closeVoting VoteCounter.countVotes
      dsimp only
      rw [if_neg (not_not.mpr hquorum), houtcome, hstats]
      dsimp only [VoteCounter.settle, Option.some_or]
      rw [← houtcome, ← hstats, ← h.isClosed]
    rw [hsame]
    exact ⟨h, rfl, rfl⟩
  | publishOutcome =>
    unfold counterStep VoteCounter.publishOutcome at hstep
    dsimp only at hstep
    split at hstep
    case h_2 => cases hstep
    case h_1 waiting positions hwaiting houtcome =>
      cases hstep
      refine ⟨?_, rfl, rfl⟩
      constructor
      case isClosed => exact h.isClosed
      case tally => exact h.tally
      case outcome =>
        have hold := h.outcome
        split at hold
        case isTrue hquorum =>
          rw [if_pos hquorum]
          obtain ⟨winners, hwinners, hsound, hcount, hpublished⟩ := hold
          rw [houtcome] at hwinners
          cases hwinners
          refine ⟨positions, houtcome, hsound, ?_, ?_⟩
          · dsimp only
            rw [List.length_append, List.length_singleton]
            omega
          · intro r hr
            rcases List.mem_append.mp hr with hr | hr
            · exact hpublished r hr
            · exact List.mem_singleton.mp hr
        case isFalse hnone =>
          rw [hold.1] at houtcome
          cases houtcome

theorem Decided.run {ballots : Record V (RecordedBallot P)} (h : Decided c ballots s)
    {actions : List (CounterAction V P)}
    (hrun : (voteCounting V c).runWhile (Untroubled c) s actions = some t) :
    Decided c ballots t ∧ t.tally = s.tally ∧ t.outcome = s.outcome := by
  induction actions generalizing s with
  | nil =>
    cases hrun
    exact ⟨h, rfl, rfl⟩
  | cons action actions ih =>
    obtain ⟨hok, hrun⟩ := Option.ite_none_right_eq_some.mp hrun
    obtain ⟨u, hstep, hrun⟩ := Option.bind_eq_some_iff.mp hrun
    obtain ⟨hu, htally, houtcome⟩ := h.step hok hstep
    obtain ⟨ht, htally', houtcome'⟩ := ih hu hrun
    exact ⟨ht, htally'.trans htally, houtcome'.trans houtcome⟩

omit [DecidableEq P] [DecidableEq V] in
theorem undecided_start (c : VoteCounter P) : Undecided c ({} : CounterState V P) where
  isOpen := rfl
  tally := rfl
  outcome := rfl
  waiting := rfl
  published := rfl
  legal := nofun

end Runs

section Examples

def noDraw : Nat → Draw := fun _ => ⟨0, le_rfl, zero_lt_one⟩

/-- One of three is to be elected, and voters may choose two. -/
def councilSpec : QuestionSpec Nat where
  method := .plurality
  positions := [0, 1, 2]
  electionType := .election
  maxChoices := 2
  maxWinners := 1
  quorumRule := .noQuorum
  tieOutcome := 0

end Examples

end AgoricSdk.Governance
