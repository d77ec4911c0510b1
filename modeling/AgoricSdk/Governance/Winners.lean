import AgoricSdk.Governance.VoteCounter

/-!
Who wins. Up to ties, a position wins if its total is positive and fewer positions than
there may be winners have more; what is left to chance is which of those equal at the cut
do.
-/

namespace AgoricSdk.Governance

section Shuffles

variable {α β : Type}

theorem swap_perm (xs : List α) (i j : Nat) : (swap xs i j).Perm xs := by
  unfold swap
  split
  case h_1 x y hx hy =>
    obtain ⟨hi, rfl⟩ := List.getElem?_eq_some_iff.mp hx
    obtain ⟨hj, rfl⟩ := List.getElem?_eq_some_iff.mp hy
    exact List.set_set_perm hi hj
  case h_2 => exact .refl _

theorem swap_map (f : α → β) (xs : List α) (i j : Nat) :
    swap (xs.map f) i j = (swap xs i j).map f := by
  unfold swap
  rw [List.getElem?_map, List.getElem?_map]
  cases xs[i]? with
  | none => rfl
  | some x =>
    cases xs[j]? with
    | none => rfl
    | some y =>
      dsimp only [Option.map_some]
      rw [List.map_set, List.map_set]

theorem shuffleFrom_perm (random : Nat → Draw) (i : Nat) (xs : List α) :
    (shuffleFrom random i xs).Perm xs := by
  induction i generalizing xs with
  | zero => exact .refl _
  | succ i ih => exact (ih _).trans (swap_perm _ _ _)

theorem shuffleFrom_map (f : α → β) (random : Nat → Draw) (i : Nat) (xs : List α) :
    shuffleFrom random i (xs.map f) = (shuffleFrom random i xs).map f := by
  induction i generalizing xs with
  | zero => rfl
  | succ i ih =>
    unfold shuffleFrom
    dsimp only
    rw [swap_map, ih]

theorem breakTie_subperm (random : Nat → Draw) (xs : List α) (n : Nat) :
    (breakTie random xs n).Subperm xs :=
  (List.take_sublist n _).subperm.trans (shuffleFrom_perm random _ xs).subperm

theorem breakTie_map (f : α → β) (random : Nat → Draw) (xs : List α) (n : Nat) :
    breakTie random (xs.map f) n = (breakTie random xs n).map f := by
  unfold breakTie shuffle
  rw [List.length_map, shuffleFrom_map, List.map_take]

theorem breakTie_length (random : Nat → Draw) {xs : List α} {n : Nat} (h : n ≤ xs.length) :
    (breakTie random xs n).length = n := by
  unfold breakTie shuffle
  rw [List.length_take, (shuffleFrom_perm random _ xs).length_eq]
  omega

end Shuffles

section Selection

variable {P : Type} {m : Nat} {results winning : List (PositionTotal P)}

/-- Totals go down. -/
def Descending (results : List (PositionTotal P)) : Prop :=
  results.Pairwise fun a b => b.total ≤ a.total

/-- How many have more than so much. -/
def countAbove (results : List (PositionTotal P)) (total : Nat) : Nat :=
  results.countP fun y => total < y.total

theorem countAbove_antitone {a b : Nat} (h : a ≤ b) :
    countAbove results b ≤ countAbove results a := by
  apply List.countP_mono_left
  intro y _ hy
  rw [decide_eq_true_eq] at hy ⊢
  omega

theorem countAbove_append {y : PositionTotal P} {total : Nat} (h : y.total ≤ total) :
    countAbove (results ++ [y]) total = countAbove results total := by
  unfold countAbove
  rw [List.countP_append, List.countP_singleton, if_neg (by simpa using h), Nat.add_zero]

/-- Those who win, but for ties at the cut. -/
def leaders (m : Nat) (results : List (PositionTotal P)) : List (PositionTotal P) :=
  results.filter fun x => 0 < x.total ∧ countAbove results x.total < m

theorem mem_leaders {x : PositionTotal P} : x ∈ leaders m results ↔
    x ∈ results ∧ 0 < x.total ∧ countAbove results x.total < m := by
  unfold leaders
  rw [List.mem_filter, decide_eq_true_eq]

theorem leaders_append {y : PositionTotal P} (h : Descending (results ++ [y])) :
    leaders m (results ++ [y]) = leaders m results ++
      if 0 < y.total ∧ countAbove results y.total < m then [y] else [] := by
  have hle : ∀ x ∈ results, y.total ≤ x.total :=
    fun x hx => (List.pairwise_append.mp h).2.2 x hx y (List.mem_singleton_self y)
  unfold leaders
  rw [List.filter_append]
  congr 1
  · apply List.filter_congr
    intro x hx
    rw [countAbove_append (hle x hx)]
  · rw [List.filter_singleton, countAbove_append le_rfl, Bool.cond_decide]

theorem foldl_addWinner (hm : 0 < m) (h : Descending results) :
    results.foldl (addWinner m) [] = leaders m results ∧
      ((leaders m results).length < m →
        leaders m results = results.filter fun x => 0 < x.total) := by
  induction results using List.reverseRecOn with
  | nil => exact ⟨rfl, fun _ => rfl⟩
  | append_singleton results y ih =>
    have hdescending : Descending results := (List.pairwise_append.mp h).1
    have hle : ∀ x ∈ results, y.total ≤ x.total :=
      fun x hx => (List.pairwise_append.mp h).2.2 x hx y (List.mem_singleton_self y)
    obtain ⟨hfold, hroom⟩ := ih hdescending
    rw [List.foldl_append, hfold, leaders_append h]
    rw [List.foldl_cons, List.foldl_nil, List.filter_append, List.filter_singleton]
    unfold addWinner
    by_cases hpos : 0 < y.total
    · have hall : (results.filter fun x => 0 < x.total) = results := by
        apply List.filter_eq_self.mpr
        intro x hx
        exact decide_eq_true (hpos.trans_le (hle x hx))
      rw [if_pos hpos, decide_eq_true hpos, cond_true]
      by_cases hlength : (leaders m results).length < m
      · -- There is room, so that all before are leaders.
        rw [if_pos hlength]
        have hsame := hroom hlength
        rw [hall] at hsame
        have hcount : countAbove results y.total < m := by
          rw [hsame] at hlength
          exact List.countP_le_length.trans_lt hlength
        rw [if_pos ⟨hpos, hcount⟩]
        exact ⟨rfl, fun _ => by rw [hroom hlength]⟩
      · rw [if_neg hlength]
        rcases List.eq_nil_or_concat (leaders m results) with hnil | ⟨front, last, hlast⟩
        · rw [hnil] at hlength
          exact absurd hm hlength
        rw [List.concat_eq_append] at hlast
        have hlastMem : last ∈ leaders m results := by
          rw [hlast]
          exact List.mem_append_right _ (List.mem_singleton_self last)
        obtain ⟨hmem, -, hcount⟩ := mem_leaders.mp hlastMem
        have hget : (leaders m results).getLast?.map PositionTotal.total = some last.total := by
          rw [hlast, List.getLast?_concat]
          rfl
        rw [hget]
        have hfull : ∀ more : List (PositionTotal P),
            ¬ (leaders m results ++ more).length < m := by
          intro more
          rw [List.length_append]
          omega
        by_cases htie : last.total = y.total
        · rw [if_pos (congrArg some htie), if_pos ⟨hpos, htie ▸ hcount⟩]
          exact ⟨rfl, fun hlt => absurd hlt (hfull _)⟩
        · rw [if_neg fun heq => htie (Option.some.inj heq)]
          -- All leaders so far have more.
          have hmore : ¬ countAbove results y.total < m := by
            have hsub : List.Sublist (leaders m results) results := List.filter_sublist
            have hsorted : Descending (leaders m results) := hdescending.sublist hsub
            have habove : ∀ w ∈ leaders m results, y.total < w.total := by
              intro w hw
              have hlt : y.total < last.total := lt_of_le_of_ne (hle last hmem) (Ne.symm htie)
              rw [hlast] at hw hsorted
              rcases List.mem_append.mp hw with hw | hw
              · exact hlt.trans_le ((List.pairwise_append.mp hsorted).2.2 w hw last
                  (List.mem_singleton_self last))
              · rw [List.mem_singleton.mp hw]
                exact hlt
            have hcountAll : countAbove (leaders m results) y.total =
                (leaders m results).length := by
              apply List.countP_eq_length.mpr
              exact fun w hw => decide_eq_true (habove w hw)
            have hmono : countAbove (leaders m results) y.total ≤ countAbove results y.total :=
              hsub.countP_le
            omega
          rw [if_neg fun hboth => hmore hboth.2, List.append_nil]
          exact ⟨rfl, fun hlt => absurd hlt hlength⟩
    · rw [if_neg hpos, if_neg fun hboth => hpos hboth.1, decide_eq_false hpos,
        cond_false, List.append_nil, List.append_nil]
      exact ⟨rfl, hroom⟩

theorem cut_at_least {least : Nat} (h : Descending winning)
    (hleast : ∀ w ∈ winning, least ≤ w.total) :
    winning.take (winning.findIdx fun w => some least = some w.total) =
        winning.filter (fun w => least < w.total) ∧
      winning.drop (winning.findIdx fun w => some least = some w.total) =
        winning.filter fun w => w.total = least := by
  induction winning with
  | nil => exact ⟨rfl, rfl⟩
  | cons w rest ih =>
    obtain ⟨hfirst, hrest⟩ := List.pairwise_cons.mp h
    have hwle := hleast w List.mem_cons_self
    by_cases hw : w.total = least
    · -- From here on all are equal.
      have hequal : ∀ x ∈ w :: rest, x.total = least := by
        intro x hx
        rcases List.mem_cons.mp hx with rfl | hx
        · exact hw
        · have hle := hfirst x hx
          have hge := hleast x (List.mem_cons_of_mem _ hx)
          omega
      rw [List.findIdx_cons, hw, decide_eq_true rfl, cond_true, List.take_zero, List.drop_zero]
      constructor
      · symm
        apply List.filter_eq_nil_iff.mpr
        intro x hx
        simp [hequal x hx]
      · symm
        apply List.filter_eq_self.mpr
        exact fun x hx => decide_eq_true (hequal x hx)
    · obtain ⟨htake, hdrop⟩ := ih hrest fun x hx => hleast x (List.mem_cons_of_mem _ hx)
      have hne : ¬ some least = some w.total := fun heq => hw (Option.some.inj heq).symm
      rw [List.findIdx_cons, decide_eq_false hne, cond_false, List.take_succ_cons,
        List.drop_succ_cons, htake, hdrop, List.filter_cons, List.filter_cons,
        if_pos (decide_eq_true (by omega)), if_neg (by simpa using hw)]
      exact ⟨rfl, rfl⟩

theorem outranked_of_not_leader {x w : PositionTotal P} (hx : x ∈ results)
    (hnot : x ∉ leaders m results) (hw : w ∈ leaders m results) : x.total ≤ w.total := by
  obtain ⟨-, -, hcount⟩ := mem_leaders.mp hw
  by_contra hlt
  apply hnot
  apply mem_leaders.mpr
  have hle : countAbove results x.total ≤ countAbove results w.total :=
    countAbove_antitone (by omega)
  exact ⟨hx, by omega, by omega⟩

theorem leaders_ne_nil (hm : 0 < m) (h : Descending results) {x : PositionTotal P}
    (hx : x ∈ results) (hpos : 0 < x.total) : leaders m results ≠ [] := by
  cases results with
  | nil => cases hx
  | cons top rest =>
    -- Nothing has more than the first.
    have hle : ∀ y ∈ top :: rest, y.total ≤ top.total := by
      intro y hy
      rcases List.mem_cons.mp hy with rfl | hy
      · exact le_rfl
      · exact (List.pairwise_cons.mp h).1 y hy
    have hnone : countAbove (top :: rest) top.total = 0 := by
      apply List.countP_eq_zero.mpr
      intro y hy
      simpa using hle y hy
    apply List.ne_nil_of_mem
    apply mem_leaders.mpr
    exact ⟨List.mem_cons_self, hpos.trans_le (hle x hx), by omega⟩

/-- Entries that win: the best there are, at most so many. -/
structure Chosen (m : Nat) (results chosen : List (PositionTotal P)) : Prop where
  nonempty : chosen ≠ []
  subperm : chosen.Subperm results
  atMost : chosen.length ≤ m
  positive : ∀ w ∈ chosen, 0 < w.total
  outranks : ∀ x ∈ results, x ∉ chosen → ∀ w ∈ chosen, x.total ≤ w.total

theorem chosen_leaders (hne : leaders m results ≠ []) (hroom : (leaders m results).length ≤ m) :
    Chosen m results (leaders m results) where
  nonempty := hne
  subperm := List.filter_sublist.subperm
  atMost := hroom
  positive _ hw := (mem_leaders.mp hw).2.1
  outranks _ hx hnot _ hw := outranked_of_not_leader hx hnot hw

theorem chosen_of_tie (random : Nat → Draw)
    (hmore : m < (leaders m results).length) {last : PositionTotal P}
    (hlast : last ∈ leaders m results)
    (hleast : ∀ w ∈ leaders m results, last.total ≤ w.total) :
    Chosen m results
      ((leaders m results).filter (fun w => last.total < w.total) ++
        breakTie random ((leaders m results).filter fun w => w.total = last.total)
          (m - ((leaders m results).filter fun w => last.total < w.total).length)) := by
  let untied := (leaders m results).filter fun w => last.total < w.total
  let tied := (leaders m results).filter fun w => w.total = last.total
  have hsplit : (untied ++ tied).Perm (leaders m results) := by
    have hperm := List.filter_append_perm (fun w => decide (last.total < w.total))
      (leaders m results)
    have htied : tied = (leaders m results).filter fun w => ! decide (last.total < w.total) := by
      apply List.filter_congr
      intro w hw
      have hle := hleast w hw
      rw [← decide_not, decide_eq_decide]
      omega
    rw [htied]
    exact hperm
  have hlength : untied.length + tied.length = (leaders m results).length := by
    rw [← List.length_append, hsplit.length_eq]
  have huntied : untied.length < m := by
    obtain ⟨-, -, hcount⟩ := mem_leaders.mp hlast
    have hsub : List.Sublist untied (results.filter fun w => last.total < w.total) :=
      List.Sublist.filter _ List.filter_sublist
    have hle : untied.length ≤ countAbove results last.total := by
      unfold countAbove
      rw [List.countP_eq_length_filter]
      exact hsub.length_le
    exact hle.trans_lt hcount
  have htake : (breakTie random tied (m - untied.length)).length = m - untied.length :=
    breakTie_length random (by omega)
  have hsub : (untied ++ breakTie random tied (m - untied.length)).Subperm (leaders m results) :=
    ((List.Subperm.refl untied).append (breakTie_subperm random tied _)).trans hsplit.subperm
  constructor
  case nonempty =>
    intro hnil
    have hzero : (untied ++ breakTie random tied (m - untied.length)).length = 0 :=
      congrArg List.length hnil
    rw [List.length_append, htake] at hzero
    omega
  case subperm => exact hsub.trans List.filter_sublist.subperm
  case atMost =>
    show (untied ++ breakTie random tied (m - untied.length)).length ≤ m
    rw [List.length_append, htake]
    omega
  case positive => exact fun w hw => (mem_leaders.mp (hsub.subset hw)).2.1
  case outranks =>
    intro x hx hnot w hw
    by_cases hleader : x ∈ leaders m results
    · have hxTied : x.total = last.total := by
        by_contra hne
        apply hnot
        apply List.mem_append_left
        have hle := hleast x hleader
        exact List.mem_filter.mpr ⟨hleader, decide_eq_true (by omega)⟩
      rw [hxTied]
      exact hleast w (hsub.subset hw)
    · exact outranked_of_not_leader hx hleader (hsub.subset hw)

/-- The outcome is the position for ties where nothing has a total, and else the positions
of entries that win. -/
theorem winnersOf_spec (random : Nat → Draw) (spec : QuestionSpec P)
    (hm : 0 < spec.maxWinners) (h : Descending results) :
    (∀ x ∈ results, x.total = 0) ∧ winnersOf random spec results = [spec.tieOutcome] ∨
      ∃ chosen, winnersOf random spec results = chosen.map PositionTotal.position ∧
        Chosen spec.maxWinners results chosen := by
  have hfold := (foldl_addWinner hm h).1
  unfold winnersOf
  rw [hfold]
  dsimp only
  rw [List.length_map]
  rcases List.eq_nil_or_concat (leaders spec.maxWinners results) with hnil | ⟨front, last, hlast⟩
  · left
    rw [hnil]
    refine ⟨?_, rfl⟩
    intro x hx
    by_contra hpos
    exact leaders_ne_nil hm h hx (Nat.pos_of_ne_zero hpos) hnil
  · right
    rw [List.concat_eq_append] at hlast
    have hmem : last ∈ leaders spec.maxWinners results := by
      rw [hlast]
      exact List.mem_append_right _ (List.mem_singleton_self last)
    have hne : leaders spec.maxWinners results ≠ [] := List.ne_nil_of_mem hmem
    rw [if_neg fun hzero => hne (List.length_eq_zero_iff.mp hzero)]
    by_cases hroom : (leaders spec.maxWinners results).length ≤ spec.maxWinners
    · rw [if_pos hroom]
      exact ⟨_, rfl, chosen_leaders hne hroom⟩
    · rw [if_neg hroom]
      have hsorted : Descending (leaders spec.maxWinners results) :=
        h.sublist List.filter_sublist
      have hleast : ∀ w ∈ leaders spec.maxWinners results, last.total ≤ w.total := by
        intro w hw
        rw [hlast] at hw hsorted
        rcases List.mem_append.mp hw with hw | hw
        · exact (List.pairwise_append.mp hsorted).2.2 w hw last (List.mem_singleton_self last)
        · rw [List.mem_singleton.mp hw]
      have hget : (leaders spec.maxWinners results).getLast?.map PositionTotal.total =
          some last.total := by
        rw [hlast, List.getLast?_concat]
        rfl
      obtain ⟨htake, hdrop⟩ := cut_at_least hsorted hleast
      rw [hget, ← List.map_take, ← List.map_drop, htake, hdrop, List.length_map, breakTie_map,
        ← List.map_append]
      exact ⟨_, rfl, chosen_of_tie random (by omega) hmem hleast⟩

end Selection

end AgoricSdk.Governance
