import AgoricSdk.Vbank.BankPurse

/-!
A purse shows the newest balance. The amount that an updater has published is that of the
first of the well-formed reports with the highest nonce, provided that no report with a new
nonce carries an amount that cannot be read, and that only the last entry of a message may
fail to be one.
-/

namespace AgoricSdk.Vbank

open SwingSet (JSString)

section Reports

/-- The nonce and the amount of a report that can be read. -/
def report (value : BridgeValue) (nonce : BridgeBigInt) : Option (Int × Nat) :=
  match value, nonce.toBigInt with
  | .string value, some n => if 0 ≤ n then (balanceAmount value).map fun amt => (n, amt) else none
  | _, _ => none

def UpdateEntry.IsFor (entry : UpdateEntry) (denom address : JSString) : Prop :=
  entry.denom = .string denom ∧ entry.address = .string address

instance (entry : UpdateEntry) (denom address : JSString) : Decidable (entry.IsFor denom address) :=
  inferInstanceAs (Decidable (_ ∧ _))

/-- The report that an entry makes on the purse. -/
def reportFor (denom address : JSString) (update : BridgeBigInt × Option UpdateEntry) :
    Option (Int × Nat) :=
  update.2.bind fun entry =>
    if entry.IsFor denom address then report entry.amount update.1 else none

/-- The reports on the purse in the order in which they were received. -/
def reports (denom address : JSString) (arrivals : List Arrival) : List (Int × Nat) :=
  (arrivals.flatMap Arrival.updated).filterMap (reportFor denom address)

/-- The report is the first of those with the highest nonce. -/
def Newest (reports : List (Int × Nat)) (nonce : Int) (amt : Nat) : Prop :=
  ∃ earlier later, reports = earlier ++ (nonce, amt) :: later ∧
    (∀ r ∈ earlier, r.1 < nonce) ∧ ∀ r ∈ later, r.1 ≤ nonce

/-- The balance is the newest one reported, and the initial one if none was. -/
def ShowsNewest (initial : Option Nat) (reports : List (Int × Nat)) (balance : Option Nat) : Prop :=
  (reports = [] ∧ balance = initial) ∨
    ∃ nonce amt, Newest reports nonce amt ∧ balance = some amt

end Reports

section Conditions

/-- The updater that an entry names. -/
def Updaters.named (s : Updaters) (entry : UpdateEntry) : Option BalanceUpdater :=
  match entry.denom, entry.address with
  | .string denom, .string address => s.find denom address
  | _, _ => none

/-- If the nonce is new to the updater, then the amount can be read. -/
def BalanceUpdater.CanRead (u : BalanceUpdater) (value : BridgeValue) (nonce : BridgeBigInt) : Prop :=
  match value, nonce.toBigInt with
  | .string value, some n => u.lastBalanceUpdate < n → (balanceAmount value).isSome
  | _, _ => True

instance (u : BalanceUpdater) (value : BridgeValue) (nonce : BridgeBigInt) :
    Decidable (u.CanRead value nonce) := by
  unfold BalanceUpdater.CanRead
  split <;> infer_instance

def Legible (nonce : BridgeBigInt) (s : Updaters) (entry : UpdateEntry) : Prop :=
  ∀ u ∈ s.named entry, u.CanRead entry.amount nonce

instance (nonce : BridgeBigInt) (s : Updaters) (entry : UpdateEntry) :
    Decidable (Legible nonce s entry) :=
  inferInstanceAs (Decidable (∀ u ∈ s.named entry, u.CanRead entry.amount nonce))

def LegibleEntries (nonce : BridgeBigInt) : List (Option UpdateEntry) → Updaters → Prop
  | [], _ => True
  | none :: updated, _ => updated = []
  | some entry :: updated, s =>
    Legible nonce s entry ∧ LegibleEntries nonce updated (updateEntry nonce s entry)

instance decidableLegibleEntries (nonce : BridgeBigInt) :
    ∀ updated s, Decidable (LegibleEntries nonce updated s)
  | [], _ => isTrue trivial
  | none :: updated, _ => inferInstanceAs (Decidable (updated = []))
  | some entry :: updated, s =>
    have := decidableLegibleEntries nonce updated (updateEntry nonce s entry)
    inferInstanceAs (Decidable (Legible nonce s entry ∧ LegibleEntries nonce updated _))

/-- Every entry of the message that arrives is legible when its turn comes. -/
def LegibleArrival (s : Updaters) (arrival : Arrival) : Prop :=
  match arrival.message with
  | some (.balanceUpdate updated nonce) => LegibleEntries nonce updated s
  | _ => True

instance (s : Updaters) (arrival : Arrival) : Decidable (LegibleArrival s arrival) := by
  unfold LegibleArrival
  split <;> infer_instance

/-- The updaters after the entries have been taken one by one. -/
def afterEntries (nonce : BridgeBigInt) (s : Updaters) (updated : List (Option UpdateEntry)) :
    Updaters :=
  updated.reduceOption.foldl (updateEntry nonce) s

def EntryFails (nonce : BridgeBigInt) (s : Updaters) (entry : UpdateEntry) : Prop :=
  ∀ u ∈ s.named entry, ∃ e, (u.update entry.amount (some nonce)).1 = .error e

/-- No entry stands in the way of another: one that fails leaves all updaters as they were,
and each is taken. -/
structure Independent (nonce : BridgeBigInt) (updated : List (Option UpdateEntry)) (s : Updaters) :
    Prop where
  failing : ∀ before entry after, updated = before ++ some entry :: after →
    EntryFails nonce (afterEntries nonce s before) entry →
      ∀ denom address,
        (updateEntry nonce (afterEntries nonce s before) entry).find denom address =
          (afterEntries nonce s before).find denom address
  taken : (updateEntries nonce updated s).2 = afterEntries nonce s updated

end Conditions

section Updating

variable {u : BalanceUpdater} {value : BridgeValue} {nonce : BridgeBigInt} {initial : Option Nat}
variable {reports : List (Int × Nat)}

theorem update_spec (hfloor : -1 ≤ u.lastBalanceUpdate) (hread : u.CanRead value nonce) :
    (u.update value (some nonce)).2 =
      match report value nonce with
      | none => u
      | some (n, amt) =>
        if n ≤ u.lastBalanceUpdate then u else ⟨n, u.published ++ [amt]⟩ := by
  cases value
  case string value =>
    unfold BalanceUpdater.CanRead at hread
    unfold BalanceUpdater.update report
    dsimp only
    cases hnonce : nonce.toBigInt with
    | none => rfl
    | some n =>
      rw [hnonce] at hread
      dsimp only at hread ⊢
      by_cases hold : n ≤ u.lastBalanceUpdate
      · rw [if_pos hold]
        split
        · rfl
        case h_2 m amt heq =>
          obtain ⟨-, hmap⟩ := Option.ite_none_right_eq_some.mp heq
          obtain ⟨amt', -, hpair⟩ := Option.map_eq_some_iff.mp hmap
          cases hpair
          rw [if_pos hold]
      · rw [if_neg hold, if_pos (by omega)]
        obtain ⟨amt, hamt⟩ := Option.isSome_iff_exists.mp (hread (by omega))
        unfold BalanceUpdater.publishBalance
        rw [hamt]
        exact (if_neg hold).symm
  all_goals rfl

theorem update_of_error (hread : u.CanRead value nonce) {e : UpdateFault}
    (herror : (u.update value (some nonce)).1 = .error e) : (u.update value (some nonce)).2 = u := by
  cases value
  case string value =>
    unfold BalanceUpdater.CanRead at hread
    unfold BalanceUpdater.update at herror ⊢
    dsimp only at herror ⊢
    cases hnonce : nonce.toBigInt with
    | none => rfl
    | some n =>
      rw [hnonce] at hread herror
      dsimp only at hread herror ⊢
      by_cases hold : n ≤ u.lastBalanceUpdate
      · rw [if_pos hold]
      · rw [if_neg hold] at herror
        obtain ⟨amt, hamt⟩ := Option.isSome_iff_exists.mp (hread (by omega))
        unfold BalanceUpdater.publishBalance at herror
        rw [hamt] at herror
        cases herror
  all_goals rfl

/-- What the updater remembers is the highest nonce, and what it shows is the amount
reported with it. -/
inductive Tracks (initial : Option Nat) : List (Int × Nat) → BalanceUpdater → Prop where
  | fresh {u : BalanceUpdater} : u.lastBalanceUpdate = -1 → u.balance = initial →
      Tracks initial [] u
  | newest {reports : List (Int × Nat)} {nonce : Int} {amt : Nat} {u : BalanceUpdater} :
      Newest reports nonce amt → 0 ≤ nonce → u.lastBalanceUpdate = nonce →
      u.balance = some amt → Tracks initial reports u

theorem Tracks.floor (h : Tracks initial reports u) : -1 ≤ u.lastBalanceUpdate := by
  cases h with
  | fresh hlast _ => omega
  | newest _ hnonce hlast _ => omega

theorem Tracks.showsNewest (h : Tracks initial reports u) :
    ShowsNewest initial reports u.balance := by
  cases h with
  | fresh _ hbalance => exact .inl ⟨rfl, hbalance⟩
  | newest hnewest _ _ hbalance => exact .inr ⟨_, _, hnewest, hbalance⟩

theorem Tracks.le (h : Tracks initial reports u) : ∀ r ∈ reports, r.1 ≤ u.lastBalanceUpdate := by
  cases h with
  | fresh => nofun
  | newest hnewest _ hlast _ =>
    obtain ⟨earlier, later, rfl, hearlier, hlater⟩ := hnewest
    intro r hr
    rw [hlast]
    rcases List.mem_append.mp hr with hr | hr
    · exact (hearlier r hr).le
    · rcases List.mem_cons.mp hr with rfl | hr
      · exact le_rfl
      · exact hlater r hr

theorem Tracks.report (h : Tracks initial reports u) {n : Int} {amt : Nat} (hn : 0 ≤ n) :
    Tracks initial (reports ++ [(n, amt)])
      (if n ≤ u.lastBalanceUpdate then u else ⟨n, u.published ++ [amt]⟩) := by
  split
  case isTrue hold =>
    cases h with
    | fresh hlast _ => omega
    | newest hnewest hnonce hlast hbalance =>
      obtain ⟨earlier, later, rfl, hearlier, hlater⟩ := hnewest
      refine .newest ⟨earlier, later ++ [(n, amt)], by simp, hearlier, ?_⟩ hnonce hlast hbalance
      intro r hr
      rcases List.mem_append.mp hr with hr | hr
      · exact hlater r hr
      · rw [List.mem_singleton.mp hr, ← hlast]
        exact hold
  case isFalse hnew =>
    refine .newest ⟨reports, [], rfl, ?_, nofun⟩ hn rfl ?_
    · intro r hr
      have hle := h.le r hr
      omega
    · exact List.getLast?_concat

theorem Tracks.update (h : Tracks initial reports u) (hread : u.CanRead value nonce) :
    Tracks initial (reports ++ (Vbank.report value nonce).toList)
      (u.update value (some nonce)).2 := by
  rw [update_spec h.floor hread]
  cases hreport : Vbank.report value nonce with
  | none =>
    rw [Option.toList_none, List.append_nil]
    exact h
  | some r =>
    have hn : 0 ≤ r.1 := by
      unfold Vbank.report at hreport
      split at hreport
      · obtain ⟨hn, hmap⟩ := Option.ite_none_right_eq_some.mp hreport
        obtain ⟨amt, -, rfl⟩ := Option.map_eq_some_iff.mp hmap
        exact hn
      · cases hreport
    exact h.report hn

end Updating

section Stores

variable {s : Updaters} {denom address : JSString} {nonce : BridgeBigInt} {entry : UpdateEntry}
variable {u : BalanceUpdater} {initial : Option Nat} {before : List (Int × Nat)}

theorem find_put (h : s.find denom address = some u) (u' : BalanceUpdater) (d a : JSString) :
    (s.put denom address u').find d a =
      if d = denom ∧ a = address then some u' else s.find d a := by
  obtain ⟨addressToUpdater, hget, -⟩ := Option.bind_eq_some_iff.mp h
  unfold Updaters.put Updaters.find
  rw [hget]
  dsimp only
  rw [Record.get_set]
  by_cases hd : d = denom
  · rw [if_pos hd, Option.bind_some, Record.get_set, hd, hget, Option.bind_some]
    by_cases ha : a = address
    · rw [if_pos ha, if_pos ⟨rfl, ha⟩]
    · rw [if_neg ha, if_neg fun hboth => ha hboth.2]
  · rw [if_neg hd, if_neg fun hboth => hd hboth.1]

theorem find_updateEntry (nonce : BridgeBigInt) (s : Updaters) (entry : UpdateEntry)
    (denom address : JSString) :
    (updateEntry nonce s entry).find denom address =
      (s.find denom address).map fun u =>
        if entry.IsFor denom address then (u.update entry.amount (some nonce)).2 else u := by
  have hkept : ¬ entry.IsFor denom address → s.find denom address =
      (s.find denom address).map fun u =>
        if entry.IsFor denom address then (u.update entry.amount (some nonce)).2 else u := by
    intro hnot
    simp only [if_neg hnot, Option.map_id']
  unfold updateEntry
  split
  case h_1 d a hd ha =>
    by_cases hfor : denom = d ∧ address = a
    · obtain ⟨rfl, rfl⟩ := hfor
      cases hfind : s.find denom address with
      | none =>
        dsimp only
        exact hfind
      | some u =>
        dsimp only
        rw [find_put hfind, if_pos ⟨rfl, rfl⟩, Option.map_some, if_pos ⟨hd, ha⟩]
    · have hnot : ¬ entry.IsFor denom address := by
        rintro ⟨hd', ha'⟩
        rw [hd] at hd'
        rw [ha] at ha'
        cases hd'
        cases ha'
        exact hfor ⟨rfl, rfl⟩
      rw [← hkept hnot]
      cases hfind : s.find d a with
      | none => rfl
      | some u =>
        dsimp only
        rw [find_put hfind, if_neg hfor]
  case h_2 hother => exact hkept fun hboth => hother denom address hboth.1 hboth.2

theorem named_of_isFor (h : entry.IsFor denom address) : s.named entry = s.find denom address := by
  unfold Updaters.named
  rw [h.1, h.2]

theorem updateEntry_tracks (hlegible : Legible nonce s entry)
    (h : ∃ u, s.find denom address = some u ∧ Tracks initial before u) :
    ∃ u, (updateEntry nonce s entry).find denom address = some u ∧
      Tracks initial (before ++ (reportFor denom address (nonce, some entry)).toList) u := by
  obtain ⟨u, hfind, htracks⟩ := h
  have hnext := find_updateEntry nonce s entry denom address
  rw [hfind, Option.map_some] at hnext
  refine ⟨_, hnext, ?_⟩
  unfold reportFor
  rw [Option.bind_some]
  by_cases hfor : entry.IsFor denom address
  · rw [if_pos hfor, if_pos hfor]
    exact htracks.update (hlegible u ((named_of_isFor hfor).trans hfind))
  · rw [if_neg hfor, if_neg hfor, Option.toList_none, List.append_nil]
    exact htracks

theorem updateEntries_tracks {updated : List (Option UpdateEntry)}
    (hlegible : LegibleEntries nonce updated s)
    (h : ∃ u, s.find denom address = some u ∧ Tracks initial before u) :
    ∃ u, (updateEntries nonce updated s).2.find denom address = some u ∧
      Tracks initial (before ++ (updated.map fun entry => (nonce, entry)).filterMap
        (reportFor denom address)) u := by
  induction updated generalizing s before with
  | nil =>
    rw [List.map_nil, List.filterMap_nil, List.append_nil]
    exact h
  | cons first updated ih =>
    rw [List.map_cons, List.filterMap_cons]
    cases first with
    | none =>
      -- Nothing follows an entry that is none.
      cases (show updated = [] from hlegible)
      rw [show reportFor denom address (nonce, none) = none from rfl]
      dsimp only
      rw [List.map_nil, List.filterMap_nil, List.append_nil]
      exact h
    | some entry =>
      obtain ⟨hfirst, hrest⟩ := hlegible
      have hstep := ih hrest (updateEntry_tracks hfirst h)
      rw [List.append_assoc] at hstep
      cases hreport : reportFor denom address (nonce, some entry) with
      | none =>
        rw [hreport] at hstep
        exact hstep
      | some r =>
        rw [hreport] at hstep
        exact hstep

theorem receive_eq (s : Updaters) (arrival : Arrival) : (receive s arrival).2 =
    match arrival.message with
    | some message => (fromBridge s message).2
    | none => s := by
  have hanswer : ∀ answer : Except BridgeFault BankMessage,
      (BankPurseController.handleAnswer answer s).2 =
        match answer.toOption with
        | some message => (fromBridge s message).2
        | none => s := by
    intro answer
    cases answer <;> rfl
  cases arrival with
  | bridge message => rfl
  | push vpc toBridge amt => exact hanswer _
  | pull vpc toBridge amt => exact hanswer _

theorem receive_tracks {arrival : Arrival} (hlegible : LegibleArrival s arrival)
    (h : ∃ u, s.find denom address = some u ∧ Tracks initial before u) :
    ∃ u, (receive s arrival).2.find denom address = some u ∧
      Tracks initial (before ++ arrival.updated.filterMap (reportFor denom address)) u := by
  rw [receive_eq]
  unfold LegibleArrival at hlegible
  unfold Arrival.updated
  cases harrival : arrival.message with
  | none =>
    rw [List.filterMap_nil, List.append_nil]
    exact h
  | some message =>
    rw [harrival] at hlegible
    cases message with
    | balanceUpdate updated nonce => exact updateEntries_tracks hlegible h
    | other =>
      rw [List.filterMap_nil, List.append_nil]
      exact h

theorem run_tracks {t : Updaters} {arrivals : List Arrival}
    (hrun : bankPurses.runWhile LegibleArrival s arrivals = some t)
    (h : ∃ u, s.find denom address = some u ∧ Tracks initial before u) :
    ∃ u, t.find denom address = some u ∧
      Tracks initial (before ++ reports denom address arrivals) u := by
  induction arrivals generalizing s before with
  | nil =>
    cases hrun
    rw [show reports denom address [] = [] from rfl, List.append_nil]
    exact h
  | cons arrival arrivals ih =>
    obtain ⟨hlegible, hrun⟩ := Option.ite_none_right_eq_some.mp hrun
    obtain ⟨s', hstep, hrun⟩ := Option.bind_eq_some_iff.mp hrun
    cases hstep
    have hrest := ih hrun (receive_tracks hlegible h)
    rw [List.append_assoc] at hrest
    unfold reports at hrest ⊢
    rw [List.flatMap_cons, List.filterMap_append]
    exact hrest

end Stores

section Failures

variable {s : Updaters} {nonce : BridgeBigInt} {updated : List (Option UpdateEntry)}

theorem find_updateEntry_of_fails {entry : UpdateEntry} (hlegible : Legible nonce s entry)
    (hfails : EntryFails nonce s entry) (denom address : JSString) :
    (updateEntry nonce s entry).find denom address = s.find denom address := by
  rw [find_updateEntry]
  cases hfind : s.find denom address with
  | none => rfl
  | some u =>
    rw [Option.map_some]
    split
    case isTrue hfor =>
      have hnamed := (named_of_isFor hfor).trans hfind
      obtain ⟨e, herror⟩ := hfails u hnamed
      rw [update_of_error (hlegible u hnamed) herror]
    case isFalse => rfl

theorem legible_at {before after : List (Option UpdateEntry)} {entry : UpdateEntry}
    (h : LegibleEntries nonce (before ++ some entry :: after) s) :
    Legible nonce (afterEntries nonce s before) entry := by
  induction before generalizing s with
  | nil => exact h.1
  | cons first before ih =>
    cases first with
    | none =>
      have hnil : before ++ some entry :: after = [] := h
      exact absurd (List.append_eq_nil_iff.mp hnil).2 (List.cons_ne_nil _ _)
    | some e => exact ih h.2

theorem updateEntries_taken (h : LegibleEntries nonce updated s) :
    (updateEntries nonce updated s).2 = afterEntries nonce s updated := by
  induction updated generalizing s with
  | nil => rfl
  | cons first updated ih =>
    cases first with
    | none =>
      cases (show updated = [] from h)
      rfl
    | some entry => exact ih h.2

theorem LegibleEntries.independent (h : LegibleEntries nonce updated s) :
    Independent nonce updated s where
  failing before entry after hsplit hfails := by
    subst hsplit
    exact find_updateEntry_of_fails (legible_at h) hfails
  taken := updateEntries_taken h

end Failures

/-- While every entry is legible when its turn comes, each purse shows the newest balance
reported since it was made, and no entry stands in the way of another. -/
theorem bankPurse_showsNewest {s t : Updaters} {arrivals : List Arrival}
    (hrun : bankPurses.runWhile LegibleArrival s arrivals = some t) :
    (∀ denom address u, s.find denom address = some u → u.lastBalanceUpdate = -1 →
      ∃ v, t.find denom address = some v ∧
        ShowsNewest u.balance (reports denom address arrivals) v.balance) ∧
    ∀ before arrival after updated nonce, arrivals = before ++ arrival :: after →
      arrival.message = some (.balanceUpdate updated nonce) →
        ∃ r, bankPurses.runWhile LegibleArrival s before = some r ∧
          Independent nonce updated r := by
  constructor
  · intro denom address u hfind hfresh
    obtain ⟨v, hv, htracks⟩ := run_tracks hrun ⟨u, hfind, .fresh hfresh rfl⟩
    exact ⟨v, hv, htracks.showsNewest⟩
  · intro before arrival after updated nonce hsplit hmessage
    rw [hsplit, TransitionSystem.runWhile_append] at hrun
    obtain ⟨r, hbefore, hrest⟩ := Option.bind_eq_some_iff.mp hrun
    refine ⟨r, hbefore, ?_⟩
    obtain ⟨hlegible, -⟩ := Option.ite_none_right_eq_some.mp hrest
    unfold LegibleArrival at hlegible
    rw [hmessage] at hlegible
    exact LegibleEntries.independent hlegible

section Runs

/-- A purse that was made with a balance of 92929. -/
def ubldPurse : Updaters :=
  .singleton ['u', 'b', 'l', 'd'] (.singleton ['f', 'o', 'o'] { published := [92929] })

def ubldUpdate (amount : BridgeValue) (nonce : BridgeBigInt) : BankMessage :=
  .balanceUpdate [some ⟨.string ['f', 'o', 'o'], .string ['u', 'b', 'l', 'd'], amount⟩] nonce

/-- The answer to a grab overtakes an older message; others cannot be read. -/
def ubldArrivals : List Arrival :=
  [.bridge (ubldUpdate .undefined (.number (.integer 7))),
    .pull ⟨['u', 'b', 'l', 'd'], ['f', 'o', 'o']⟩
      (fun _ => .ok (ubldUpdate (.string ['2', '0']) (.string ['4']))) 5,
    .bridge (ubldUpdate (.string ['2', '5']) (.number (.integer 3))),
    .bridge (ubldUpdate (.string ['x']) (.number (.integer 4)))]

theorem bankPurse_showsNewest_overtaken :
    ∃ v, Updaters.find
        (.singleton ['u', 'b', 'l', 'd']
          (.singleton ['f', 'o', 'o'] ⟨4, [92929, 20]⟩)) ['u', 'b', 'l', 'd'] ['f', 'o', 'o'] =
        some v ∧
      ShowsNewest (some 92929) (reports ['u', 'b', 'l', 'd'] ['f', 'o', 'o'] ubldArrivals)
        v.balance := by
  have hrun : bankPurses.runWhile LegibleArrival ubldPurse ubldArrivals = some
      (.singleton ['u', 'b', 'l', 'd'] (.singleton ['f', 'o', 'o'] ⟨4, [92929, 20]⟩)) := by
    decide +kernel
  exact (bankPurse_showsNewest hrun).1 ['u', 'b', 'l', 'd'] ['f', 'o', 'o']
    { published := [92929] } (by decide +kernel) rfl

/-- A report whose amount cannot be read keeps a well-formed one with its nonce out. -/
theorem unreadable_report_takes_nonce :
    ¬ ∀ arrivals t, bankPurses.runWhile TransitionSystem.anyStep ubldPurse arrivals = some t →
      ∃ v, t.find ['u', 'b', 'l', 'd'] ['f', 'o', 'o'] = some v ∧
        ShowsNewest (some 92929) (reports ['u', 'b', 'l', 'd'] ['f', 'o', 'o'] arrivals)
          v.balance := by
  intro h
  let arrivals : List Arrival :=
    [.bridge (ubldUpdate (.string ['x']) (.number (.integer 5))),
      .bridge (ubldUpdate (.string ['7']) (.number (.integer 5)))]
  have hreports : reports ['u', 'b', 'l', 'd'] ['f', 'o', 'o'] arrivals = [(5, 7)] := by
    decide +kernel
  have hrun : bankPurses.runWhile TransitionSystem.anyStep ubldPurse arrivals =
      some (.singleton ['u', 'b', 'l', 'd'] (.singleton ['f', 'o', 'o'] ⟨5, [92929]⟩)) := by
    decide +kernel
  obtain ⟨v, hv, hshows⟩ := h arrivals _ hrun
  have hbalance : v = ⟨5, [92929]⟩ := by
    have hfind : Updaters.find (.singleton ['u', 'b', 'l', 'd']
      (.singleton ['f', 'o', 'o'] ⟨5, [92929]⟩)) ['u', 'b', 'l', 'd'] ['f', 'o', 'o'] =
        some ⟨5, [92929]⟩ := by decide +kernel
    exact Option.some.inj (hv.symm.trans hfind)
  rw [hreports, hbalance] at hshows
  rcases hshows with ⟨hnil, -⟩ | ⟨nonce, amt, ⟨earlier, later, hsplit, -, -⟩, hamt⟩
  · cases hnil
  · have hmem : (nonce, amt) ∈ [((5 : Int), 7)] := by
      rw [hsplit]
      exact List.mem_append_right _ List.mem_cons_self
    cases List.mem_singleton.mp hmem
    cases hamt

end Runs

end AgoricSdk.Vbank
