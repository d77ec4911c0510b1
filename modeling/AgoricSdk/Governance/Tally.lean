import AgoricSdk.Governance.Winners

/-!
The tally of ballots and the outcome it leads to. Each position has the shares of the
ballots that choose it, at the first place where it is listed, and the winners are the
best of those that have any.
-/

namespace AgoricSdk.Governance

variable {P : Type} [DecidableEq P]

/-- Where a position is first listed. -/
def index (positions : List P) (position : P) : Option Nat :=
  positions.findIdx? fun p => p = position

/-- The shares of the ballots that choose the position, each counted once. -/
def sharesFor (ballots : List (RecordedBallot P)) (position : P) : Nat :=
  (ballots.map fun ballot => if position ∈ ballot.chosen then ballot.shares else 0).sum

/-- The results that have the totals, each where its position is first listed. -/
def resultsOf (positions : List P) (total : P → Nat) : List (PositionTotal P) :=
  positions.zipIdx.map fun (position, i) =>
    ⟨position, if index positions position = some i then total position else 0⟩

/-- A ballot that does not count for a position more than once. -/
def CountsOnce (ballot : RecordedBallot P) : Prop := ballot.chosen.Nodup ∨ ballot.shares = 0

instance (ballot : RecordedBallot P) : Decidable (CountsOnce ballot) :=
  inferInstanceAs (Decidable (_ ∨ _))

section Tallies

variable {positions : List P} {ballots : List (RecordedBallot P)}

theorem index_eq_some {position : P} {i : Nat} (h : index positions position = some i) :
    positions[i]? = some position := by
  obtain ⟨hi, hp, -⟩ := List.findIdx?_eq_some_iff_getElem.mp h
  rw [List.getElem?_eq_getElem hi, of_decide_eq_true hp]

theorem exists_index {position : P} (h : position ∈ positions) :
    ∃ i, index positions position = some i := by
  apply Option.isSome_iff_exists.mp
  unfold index
  rw [List.findIdx?_isSome]
  exact List.any_eq_true.mpr ⟨position, h, decide_eq_true rfl⟩

theorem countPosition_get (shares : Nat) (counts : Nat × List Nat) (position : P) (i : Nat) :
    (countPosition positions shares counts position).2[i]? =
      counts.2[i]?.map fun n => n + if index positions position = some i then shares else 0 := by
  unfold countPosition
  cases hindex : index positions position with
  | none =>
    rw [show positions.findIdx? (fun p => p = position) = none from hindex]
    simp
  | some j =>
    rw [show positions.findIdx? (fun p => p = position) = some j from hindex]
    dsimp only
    rw [List.getElem?_modify]
    by_cases hij : j = i
    · simp [hij]
    · simp [hij]

theorem countBallot_get (counts : Nat × List Nat) (ballot : RecordedBallot P) (i : Nat) :
    (countBallot positions counts ballot).2[i]? = counts.2[i]?.map fun n =>
      n + ballot.shares * ballot.chosen.countP fun p => index positions p = some i := by
  unfold countBallot
  induction ballot.chosen generalizing counts with
  | nil => simp
  | cons p chosen ih =>
    rw [List.foldl_cons, ih, countPosition_get, Option.map_map, List.countP_cons]
    congr 1
    funext n
    dsimp only [Function.comp]
    by_cases hp : index positions p = some i
    · rw [if_pos hp, if_pos (decide_eq_true hp)]
      ring
    · rw [if_neg hp, if_neg (by simpa using hp)]
      ring

theorem foldl_countBallot_get (counts : Nat × List Nat) (i : Nat) :
    (ballots.foldl (countBallot positions) counts).2[i]? = counts.2[i]?.map fun n =>
      n + (ballots.map fun ballot =>
        ballot.shares * ballot.chosen.countP fun p => index positions p = some i).sum := by
  induction ballots generalizing counts with
  | nil => simp
  | cons ballot ballots ih =>
    rw [List.foldl_cons, ih, countBallot_get, Option.map_map, List.map_cons, List.sum_cons]
    congr 1
    funext n
    exact Nat.add_assoc _ _ _

theorem foldl_countBallot_spoiled (counts : Nat × List Nat)
    (hlegal : ∀ ballot ∈ ballots, ∀ p ∈ ballot.chosen, p ∈ positions) :
    (ballots.foldl (countBallot positions) counts).1 = counts.1 := by
  induction ballots generalizing counts with
  | nil => rfl
  | cons ballot ballots ih =>
    obtain ⟨hfirst, hrest⟩ := List.forall_mem_cons.mp hlegal
    have hballot : ∀ (chosen : List P) (counts : Nat × List Nat), (∀ p ∈ chosen, p ∈ positions) →
        (chosen.foldl (countPosition positions ballot.shares) counts).1 = counts.1 := by
      intro chosen
      induction chosen with
      | nil => exact fun _ _ => rfl
      | cons p chosen ihc =>
        intro counts hchosen
        obtain ⟨hp, hchosen⟩ := List.forall_mem_cons.mp hchosen
        obtain ⟨i, hi⟩ := exists_index hp
        rw [List.foldl_cons, ihc _ hchosen]
        unfold countPosition
        rw [show positions.findIdx? (fun position => position = p) = some i from hi]
    rw [List.foldl_cons, ih _ hrest]
    exact hballot ballot.chosen counts hfirst

theorem shares_count (hlegal : ∀ ballot ∈ ballots, CountsOnce ballot) {position : P} {i : Nat}
    (hi : positions[i]? = some position) :
    (ballots.map fun ballot =>
        ballot.shares * ballot.chosen.countP fun p => index positions p = some i).sum =
      if index positions position = some i then sharesFor ballots position else 0 := by
  have hcount : ∀ chosen : List P, (chosen.countP fun p => index positions p = some i) =
      if index positions position = some i then chosen.count position else 0 := by
    intro chosen
    split
    case isTrue hfirst =>
      unfold List.count
      apply List.countP_congr
      intro p _
      rw [decide_eq_true_eq, beq_iff_eq]
      constructor
      · intro hp
        exact Option.some.inj ((index_eq_some hp).symm.trans hi)
      · rintro rfl
        exact hfirst
    case isFalse hlater =>
      apply List.countP_eq_zero.mpr
      intro p _ hp
      have hp' := of_decide_eq_true hp
      rw [Option.some.inj ((index_eq_some hp').symm.trans hi)] at hp'
      exact hlater hp'
  unfold sharesFor
  split
  case isTrue hfirst =>
    congr 1
    apply List.map_congr_left
    intro ballot hballot
    rw [hcount, if_pos hfirst]
    rcases hlegal ballot hballot with hnodup | hnone
    · rw [List.Nodup.count hnodup]
      split
      · rw [Nat.mul_one]
      · rw [Nat.mul_zero]
    · rw [hnone, Nat.zero_mul]
      split <;> rfl
  case isFalse hlater =>
    have hzero : ∀ n ∈ ballots.map fun ballot =>
        ballot.shares * ballot.chosen.countP fun p => index positions p = some i, n = 0 := by
      intro n hn
      obtain ⟨ballot, -, rfl⟩ := List.mem_map.mp hn
      rw [hcount, if_neg hlater, Nat.mul_zero]
    exact List.sum_eq_zero hzero

theorem voteStatistics_results (hlegal : ∀ ballot ∈ ballots, CountsOnce ballot) :
    (voteStatistics positions ballots).results =
      resultsOf positions (sharesFor ballots) := by
  apply List.ext_getElem?
  intro i
  unfold voteStatistics resultsOf tallyBallots
  dsimp only
  rw [List.getElem?_zipWith, foldl_countBallot_get, List.getElem?_map, List.getElem?_zipIdx]
  cases hi : positions[i]? with
  | none => rfl
  | some position =>
    have hlt : i < positions.length := (List.getElem?_eq_some_iff.mp hi).1
    rw [shares_count hlegal hi, List.getElem?_replicate, if_pos hlt]
    simp

end Tallies

section Outcomes

/-- Winners as they should be, for the totals of the positions. -/
structure SoundWinners (spec : QuestionSpec P) (total : P → Nat) (winners : List P) : Prop where
  atMost : winners.length ≤ spec.maxWinners
  distinct : winners.Nodup
  legal : ∀ w ∈ winners, w ∈ spec.positions
  /-- Only among positions equal at the cut is there a choice. -/
  outranks : ∀ p ∈ spec.positions, p ∉ winners → ∀ w ∈ winners, total p ≤ total w
  positive : (∃ p ∈ spec.positions, 0 < total p) → winners ≠ [] ∧ ∀ w ∈ winners, 0 < total w
  tie : (∀ p ∈ spec.positions, total p = 0) → winners = [spec.tieOutcome]

variable {positions : List P} {total : P → Nat} {results : List (PositionTotal P)}

theorem mem_resultsOf {r : PositionTotal P} : r ∈ resultsOf positions total ↔
    ∃ i, positions[i]? = some r.position ∧
      r.total = if index positions r.position = some i then total r.position else 0 := by
  unfold resultsOf
  rw [List.mem_map]
  constructor
  · rintro ⟨⟨position, i⟩, hmem, rfl⟩
    exact ⟨i, List.mem_zipIdx_iff_getElem?.mp hmem, rfl⟩
  · rintro ⟨i, hi, htotal⟩
    refine ⟨(r.position, i), List.mem_zipIdx_iff_getElem?.mpr hi, ?_⟩
    dsimp only
    rw [← htotal]

theorem position_mem {r : PositionTotal P} (h : r ∈ resultsOf positions total) :
    r.position ∈ positions := by
  obtain ⟨i, hi, -⟩ := mem_resultsOf.mp h
  exact List.mem_of_getElem? hi

theorem total_of_pos {r : PositionTotal P} (h : r ∈ resultsOf positions total)
    (hpos : 0 < r.total) : r.total = total r.position := by
  obtain ⟨i, -, htotal⟩ := mem_resultsOf.mp h
  split at htotal
  · exact htotal
  · omega

theorem first_mem {p : P} (h : p ∈ positions) : ⟨p, total p⟩ ∈ resultsOf positions total := by
  obtain ⟨i, hi⟩ := exists_index h
  exact mem_resultsOf.mpr ⟨i, index_eq_some hi, (if_pos hi).symm⟩

theorem nodup_positive :
    (((resultsOf positions total).filter fun r => 0 < r.total).map
      PositionTotal.position).Nodup := by
  have hfilter : (resultsOf positions total).filter (fun r => 0 < r.total) =
      (positions.zipIdx.filter fun (position, i) =>
        0 < if index positions position = some i then total position else 0).map
          fun (position, i) =>
            ⟨position, if index positions position = some i then total position else 0⟩ := by
    unfold resultsOf
    rw [List.filter_map]
    rfl
  rw [hfilter, List.map_map]
  apply List.Nodup.map_on
  · rintro ⟨p, i⟩ hp ⟨q, j⟩ hq heq
    obtain rfl : p = q := heq
    have hfirst : ∀ k, (p, k) ∈ (positions.zipIdx.filter fun (position, i) =>
        0 < if index positions position = some i then total position else 0) →
          index positions p = some k := by
      intro k hk
      have hpos := of_decide_eq_true (List.mem_filter.mp hk).2
      by_contra hne
      rw [if_neg hne] at hpos
      omega
    have hi := hfirst i hp
    rw [hfirst j hq] at hi
    rw [Option.some.inj hi]
  · apply List.Nodup.filter
    apply List.Nodup.of_map Prod.snd
    rw [List.zipIdx_map_snd]
    exact List.nodup_range'

theorem soundWinners_of_chosen {spec : QuestionSpec P}
    (hresults : results.Perm (resultsOf spec.positions total))
    {chosen : List (PositionTotal P)} (h : Chosen spec.maxWinners results chosen) :
    SoundWinners spec total (chosen.map PositionTotal.position) := by
  have hmem : ∀ w ∈ chosen, w ∈ resultsOf spec.positions total :=
    fun w hw => hresults.mem_iff.mp (h.subperm.subset hw)
  have htotal : ∀ w ∈ chosen, w.total = total w.position :=
    fun w hw => total_of_pos (hmem w hw) (h.positive w hw)
  constructor
  case atMost =>
    rw [List.length_map]
    exact h.atMost
  case distinct =>
    have hself : chosen.filter (fun r => 0 < r.total) = chosen :=
      List.filter_eq_self.mpr fun w hw => decide_eq_true (h.positive w hw)
    have hsub : chosen.Subperm ((resultsOf spec.positions total).filter fun r => 0 < r.total) := by
      rw [← hself]
      exact (h.subperm.trans hresults.subperm).filter _
    obtain ⟨l, hperm, hsublist⟩ := hsub
    have hnodup := nodup_positive.sublist (hsublist.map PositionTotal.position)
    exact (hperm.map _).nodup_iff.mp hnodup
  case legal =>
    intro w hw
    obtain ⟨r, hr, rfl⟩ := List.mem_map.mp hw
    exact position_mem (hmem r hr)
  case outranks =>
    intro p hp hnot w hw
    obtain ⟨r, hr, rfl⟩ := List.mem_map.mp hw
    have hout : (⟨p, total p⟩ : PositionTotal P) ∉ chosen :=
      fun hin => hnot (List.mem_map.mpr ⟨_, hin, rfl⟩)
    rw [← htotal r hr]
    exact h.outranks _ (hresults.mem_iff.mpr (first_mem hp)) hout r hr
  case positive =>
    intro _
    refine ⟨fun hnil => h.nonempty (List.map_eq_nil_iff.mp hnil), ?_⟩
    intro w hw
    obtain ⟨r, hr, rfl⟩ := List.mem_map.mp hw
    rw [← htotal r hr]
    exact h.positive r hr
  case tie =>
    intro hzero
    obtain ⟨w, hw⟩ := List.exists_mem_of_ne_nil _ h.nonempty
    have hpos := h.positive w hw
    rw [htotal w hw, hzero _ (position_mem (hmem w hw))] at hpos
    omega

omit [DecidableEq P] in
/-- Where nothing has a total, the position for ties is the outcome. -/
theorem soundWinners_of_zero {spec : QuestionSpec P} (hmax : 1 ≤ spec.maxWinners)
    (htie : spec.tieOutcome ∈ spec.positions) (hzero : ∀ p ∈ spec.positions, total p = 0) :
    SoundWinners spec total [spec.tieOutcome] where
  atMost := hmax
  distinct := List.nodup_singleton _
  legal w hw := List.mem_singleton.mp hw ▸ htie
  outranks p hp _ w _ := by
    rw [hzero p hp]
    exact Nat.zero_le _
  positive hsome := by
    obtain ⟨p, hp, hpos⟩ := hsome
    rw [hzero p hp] at hpos
    omega
  tie _ := rfl

end Outcomes

end AgoricSdk.Governance
