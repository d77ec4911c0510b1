import AgoricSdk.Lib.Record
import AgoricSdk.Lib.Throwing
import AgoricSdk.Lib.Transition

/-!
Vote counters. Voters may replace their ballots; closing counts those recorded, settles
the promises for the statistics and the outcome, and has the outcome published. The two
counters differ in the ballots they take and in how they choose among the positions.
-/

namespace AgoricSdk.Governance

inductive ChoiceMethod where
  | unranked
  | order
  | plurality
  deriving DecidableEq

inductive ElectionType where
  | paramChange
  | election
  | survey
  | apiInvocation
  | offerFilter
  deriving DecidableEq

inductive QuorumRule where
  | majority
  | noQuorum
  | all
  deriving DecidableEq

structure QuestionSpec (P : Type) where
  method : ChoiceMethod
  positions : List P
  electionType : ElectionType
  maxChoices : Nat
  maxWinners : Nat
  quorumRule : QuorumRule
  tieOutcome : P

section Questions

variable {P : Type}

/-- What the shapes of the kinds of questions say, but for the issues and positions. -/
def QuestionSpec.matchesShape (spec : QuestionSpec P) : Bool :=
  match spec.electionType with
  | .election | .survey => 1 ≤ spec.maxChoices ∧ 1 ≤ spec.maxWinners
  | .apiInvocation | .offerFilter =>
    spec.positions.length = 2 ∧ spec.maxChoices = 1 ∧ spec.maxWinners = 1
  | .paramChange =>
    spec.method = .unranked ∧ spec.positions.length = 2 ∧ spec.maxChoices = 1 ∧
      spec.maxWinners = 1 ∧ spec.quorumRule = .majority

variable [DecidableEq P]

def coerceQuestionSpec (spec : QuestionSpec P) : Except String Unit :=
  if ¬ spec.matchesShape then throw "question must match QuestionSpecShape"
  else if spec.tieOutcome ∉ spec.positions then throw "tieOutcome must match one of the positions"
  else pure ()

def positionIncluded (positions : List P) (p : P) : Bool := positions.any fun e => e = p

end Questions

/-- A random number in `[0, 1)`. -/
structure Draw where
  value : ℚ
  nonneg : 0 ≤ value
  lt_one : value < 1

section Ties

variable {α : Type}

def swap (xs : List α) (i j : Nat) : List α :=
  match xs[i]?, xs[j]? with
  | some x, some y => (xs.set i y).set j x
  | _, _ => xs

/-- Exchange each place from the given one down to the second with one that is not after it. -/
def shuffleFrom (random : Nat → Draw) : Nat → List α → List α
  | 0, xs => xs
  | i + 1, xs =>
    let j := ⌊(random (i + 1)).value * (i + 2)⌋₊
    shuffleFrom random i (swap xs (i + 1) j)

def shuffle (random : Nat → Draw) (xs : List α) : List α := shuffleFrom random (xs.length - 1) xs

def breakTie (random : Nat → Draw) (positions : List α) (n : Nat) : List α :=
  (shuffle random positions).take n

end Ties

structure RecordedBallot (P : Type) where
  chosen : List P
  shares : Nat
  deriving DecidableEq

structure PositionTotal (P : Type) where
  position : P
  total : Nat
  deriving DecidableEq

structure VoteStatistics (P : Type) where
  spoiled : Nat
  votes : Nat
  results : List (PositionTotal P)
  deriving DecidableEq

inductive OutcomeRecord (P : Type) where
  | win (positions : List P)
  | fail (reason : String)
  deriving DecidableEq

inductive OutcomePromise (P : Type) where
  | unsettled
  | fulfilled (positions : List P)
  | rejected (reason : String)
  deriving DecidableEq

section Counting

variable {P : Type} [DecidableEq P]

/-- Add the shares to the first of the positions that is equal. -/
def countPosition (positions : List P) (shares : Nat) (counts : Nat × List Nat) (position : P) :
    Nat × List Nat :=
  match positions.findIdx? fun p => p = position with
  | none => (counts.1 + shares, counts.2)
  | some positionIndex => (counts.1, counts.2.modify positionIndex fun n => n + shares)

def countBallot (positions : List P) (counts : Nat × List Nat) (ballot : RecordedBallot P) :
    Nat × List Nat :=
  ballot.chosen.foldl (countPosition positions ballot.shares) counts

def tallyBallots (positions : List P) (ballots : List (RecordedBallot P)) : Nat × List Nat :=
  ballots.foldl (countBallot positions) (0, List.replicate positions.length 0)

def voteStatistics (positions : List P) (ballots : List (RecordedBallot P)) : VoteStatistics P :=
  let (spoiled, tally) := tallyBallots positions ballots
  { spoiled, votes := ballots.length, results := List.zipWith PositionTotal.mk positions tally }

/-- The quorum counter's check. -/
def checkQuorum (threshold : Int) (stats : VoteStatistics P) : Bool :=
  threshold ≤ (stats.results.map PositionTotal.total).sum

/-- A counter of either kind. -/
structure VoteCounter (P : Type) where
  spec : QuestionSpec P
  threshold : Int
  checkBallot : List P → Except String Unit
  /-- The results as they are left in the statistics, and the outcome. -/
  conclude : (Nat → Draw) → List (PositionTotal P) → List (PositionTotal P) × List P

end Counting

section MultiCandidate

variable {P : Type} [DecidableEq P]

def validateQuestionSpec (spec : QuestionSpec P) : Except String Unit := do
  coerceQuestionSpec spec
  if spec.electionType ≠ .election ∧ spec.electionType ≠ .survey then
    throw "electionType must be ELECTION or SURVEY"
  else if spec.method ≠ .plurality then throw "method must be PLURALITY"
  else pure ()

def addWinner (maxWinners : Nat) (winningPositions : List (PositionTotal P))
    (position : PositionTotal P) : List (PositionTotal P) :=
  if 0 < position.total then
    if winningPositions.length < maxWinners then winningPositions ++ [position]
    else if winningPositions.getLast?.map PositionTotal.total = some position.total then
      winningPositions ++ [position]
    else winningPositions
  else winningPositions

def winnersOf (random : Nat → Draw) (spec : QuestionSpec P) (sorted : List (PositionTotal P)) :
    List P :=
  let winningPositions := sorted.foldl (addWinner spec.maxWinners) []
  let tieIndex := winningPositions.findIdx fun position =>
    winningPositions.getLast?.map PositionTotal.total = some position.total
  let winning := winningPositions.map PositionTotal.position
  if winning.length = 0 then [spec.tieOutcome]
  else if winning.length ≤ spec.maxWinners then winning
  else
    let untied := winning.take tieIndex
    let tied := winning.drop tieIndex
    untied ++ breakTie random tied (spec.maxWinners - untied.length)

/-- The results are sorted in place. -/
def sortResults (results : List (PositionTotal P)) : List (PositionTotal P) :=
  results.insertionSort fun a b => b.total ≤ a.total

def checkChoices (spec : QuestionSpec P) (chosenPositions : List P) : Except String Unit :=
  if spec.maxChoices < chosenPositions.length then
    throw "The number of choices exceeds the max choices."
  else if ¬ chosenPositions.all (positionIncluded spec.positions) then
    throw "The specified choice is not a legal position"
  else pure ()

def makeMultiCandidateVoteCounter (spec : QuestionSpec P) (threshold : Int) :
    Except String (VoteCounter P) := do
  validateQuestionSpec spec
  return {
    spec
    threshold
    checkBallot := checkChoices spec
    conclude := fun random results =>
      let sortedPositions := sortResults results
      (sortedPositions, winnersOf random spec sortedPositions) }

end MultiCandidate

section Binary

variable {P : Type} [DecidableEq P]

def validateBinaryQuestionSpec (spec : QuestionSpec P) : Except String Unit := do
  coerceQuestionSpec spec
  if spec.positions.length ≠ 2 then throw "Binary questions must have exactly two positions"
  else if spec.maxChoices ≠ 1 then throw "Can only choose 1 item on a binary question"
  else if spec.method ≠ .unranked then throw "method must be UNRANKED"
  else pure ()

def binaryOutcome (spec : QuestionSpec P) : List (PositionTotal P) → List P
  | [first, second] =>
    if second.total < first.total then [first.position]
    else if first.total < second.total then [second.position]
    else [spec.tieOutcome]
  | _ => []

def checkChoice (spec : QuestionSpec P) : List P → Except String Unit
  | [position] =>
    if positionIncluded spec.positions position then pure ()
    else throw "The specified choice is not a legal position"
  | _ => throw "only 1 position allowed"

def makeBinaryVoteCounter (spec : QuestionSpec P) (threshold : Int) :
    Except String (VoteCounter P) := do
  validateBinaryQuestionSpec spec
  return {
    spec
    threshold
    checkBallot := checkChoice spec
    conclude := fun _ results => (results, binaryOutcome spec results) }

end Binary

section Counters

variable {P V : Type} [DecidableEq P] [DecidableEq V]

structure CounterState (V P : Type) where
  isOpen : Bool := true
  allBallots : Record V (RecordedBallot P) := ∅
  /-- What the promise for the statistics is fulfilled with. -/
  tally : Option (VoteStatistics P) := none
  outcome : OutcomePromise P := .unsettled
  /-- Callbacks that publish the outcome once its promise is fulfilled. -/
  waiting : Nat := 0
  published : List (OutcomeRecord P) := []

namespace VoteCounter

variable (c : VoteCounter P)

def submitVote (s : CounterState V P) (voterHandle : V) (chosenPositions : List P)
    (shares : Nat) : Except String (CounterState V P) := do
  c.checkBallot chosenPositions
  return { s with
    allBallots := s.allBallots.set voterHandle { chosen := chosenPositions, shares } }

/-- A promise that is settled stays as it is. -/
def settle (outcome settled : OutcomePromise P) : OutcomePromise P :=
  match outcome with
  | .unsettled => settled
  | _ => outcome

def countVotes (random : Nat → Draw) (s : CounterState V P) : CounterState V P :=
  let stats := voteStatistics c.spec.positions s.allBallots.values
  if ¬ checkQuorum c.threshold stats then
    { s with
      tally := s.tally.or (some stats)
      outcome := settle s.outcome (.rejected "No quorum")
      published := s.published ++ [.fail "No quorum"] }
  else
    let (results, winners) := c.conclude random stats.results
    let outcome := settle s.outcome (.fulfilled winners)
    { s with
      tally := s.tally.or (some { stats with results })
      outcome
      -- The callback on a rejected promise is never called.
      waiting := match outcome with
        | .rejected _ => s.waiting
        | _ => s.waiting + 1 }

def closeVoting (random : Nat → Draw) (s : CounterState V P) : CounterState V P :=
  c.countVotes random { s with isOpen := false }

/-- One of the callbacks publishes the outcome. -/
def publishOutcome (s : CounterState V P) : Option (CounterState V P) :=
  match s.waiting, s.outcome with
  | waiting + 1, .fulfilled positions =>
    some { s with waiting, published := s.published ++ [.win positions] }
  | _, _ => none

end VoteCounter

inductive CounterAction (V P : Type) where
  | submitVote (voterHandle : V) (chosenPositions : List P) (shares : Nat)
  | closeVoting (random : Nat → Draw)
  | publishOutcome

/-- A call that throws changes nothing. -/
def counterStep (c : VoteCounter P) (s : CounterState V P) :
    CounterAction V P → Option (CounterState V P)
  | .submitVote voterHandle chosenPositions shares =>
    match c.submitVote s voterHandle chosenPositions shares with
    | .ok s' => some s'
    | .error _ => some s
  | .closeVoting random => some (c.closeVoting random s)
  | .publishOutcome => VoteCounter.publishOutcome s

def voteCounting (V : Type) [DecidableEq V] (c : VoteCounter P) :
    TransitionSystem (CounterState V P) (CounterAction V P) where
  init s := s = {}
  step := counterStep c

end Counters

end AgoricSdk.Governance
