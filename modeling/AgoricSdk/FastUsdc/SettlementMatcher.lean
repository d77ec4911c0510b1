import AgoricSdk.FastUsdc.TransactionFeed
import AgoricSdk.Lib.Throwing
import AgoricSdk.Lib.Transition

/-!
Matching a mint with the pending transactions of its forwarding address: one of the
amount itself, or else the first combination that a depth-first search finds. The search
remembers its dead ends, and gives up on combinations of too many transactions.
-/

namespace AgoricSdk.FastUsdc

abbrev NobleAddress := String

inductive PendingTxStatus where
  | advancing
  | advanceFailed
  | advanced
  | advanceSkipped
  deriving DecidableEq

structure PendingTx extends CctpTxEvidence where
  status : PendingTxStatus
  deriving DecidableEq

inductive MatchFault where
  | targetExceeded (forwardingAddress : NobleAddress)
  | maxMatchDepth (forwardingAddress : NobleAddress)
  deriving DecidableEq

def MAX_MATCH_DEPTH : Nat := 25

/-- Negative where the first goes before the second: the larger amount. -/
def comparePendingTxDesc (a b : PendingTx) : Int := (b.tx.amount : Int) - a.tx.amount

section SortedArray

variable {α : Type} (compare : α → α → Int)

/-- Where the scan from the end, now at `i`, comes to rest. -/
def insertionIndex (array : List α) (item : α) : Nat → Nat
  | 0 => 0
  | i + 1 =>
    match array[i]? with
    | some a => if compare item a < 0 then insertionIndex array item i else i + 1
    | none => i + 1

def insertIntoSortedArray (array : List α) (item : α) : List α :=
  let i := insertionIndex compare array item array.length
  array.take i ++ item :: array.drop i

end SortedArray

/-- A pending transaction with its place in the list stands for the object itself. -/
abbrev Position := PendingTx × Nat

abbrev DeadEnds := List (Nat × Nat)

/-- What a part of the search came to. -/
structure Search where
  found : Option (List Position)
  deadEnds : DeadEnds

section Search

variable (forwardingAddress : NobleAddress) (target : Nat)

/-- `dfs`, where `loop` goes through the transactions from `index` on. -/
def dfs (rest : List Position) (index sum : Nat) (path : List Position) (deadEnds : DeadEnds)
    (loop : DeadEnds → Except MatchFault Search) : Except MatchFault Search :=
  if sum = target then .ok { found := some path, deadEnds }
  else if sum > target then .error (.targetExceeded forwardingAddress)
  else if path.length ≥ MAX_MATCH_DEPTH then .error (.maxMatchDepth forwardingAddress)
  else if rest = [] then .ok { found := none, deadEnds }
  else if (index, sum) ∈ deadEnds then .ok { found := none, deadEnds }
  else do
    let search ← loop deadEnds
    match search.found with
    | some _ => return search
    | none => return { found := none, deadEnds := (index, sum) :: search.deadEnds }

/-- The loop over the transactions from the `i`th on. -/
def tryEach : List Position → Nat → Nat → List Position → DeadEnds → Except MatchFault Search
  | [], _, _, _, deadEnds => .ok { found := none, deadEnds }
  | tx :: rest, i, sum, path, deadEnds =>
    let nextSum := sum + tx.1.tx.amount
    if nextSum > target then tryEach rest (i + 1) sum path deadEnds
    else do
      let search ← dfs forwardingAddress target rest (i + 1) nextSum (path ++ [tx]) deadEnds
        (tryEach rest (i + 1) nextSum (path ++ [tx]))
      match search.found with
      | some _ => return search
      | none => tryEach rest (i + 1) sum path search.deadEnds

end Search

def greedyMatch (pending : List PendingTx) (target : Nat) : Except MatchFault (List Position) :=
  match pending with
  | [] => .ok []
  | first :: _ =>
    if target = 0 then .ok []
    else do
      let address := first.tx.forwardingAddress
      let search ← dfs address target pending.zipIdx 0 0 [] []
        (tryEach address target pending.zipIdx 0 0 [])
      return search.found.getD []

abbrev PendingSettleTxs := Table NobleAddress (List PendingTx)

def addPendingSettleTx (pendingSettleTxs : PendingSettleTxs) (pending : PendingTx) :
    PendingSettleTxs :=
  let nfa := pending.tx.forwardingAddress
  match pendingSettleTxs.lookup nfa with
  | none => pendingSettleTxs.insert nfa [pending]
  | some list =>
    pendingSettleTxs.insert nfa (insertIntoSortedArray comparePendingTxDesc list pending)

def matchAndDequeueSettlement (pendingSettleTxs : PendingSettleTxs) (nfa : NobleAddress)
    (amount : Nat) : Except MatchFault (List PendingTx × PendingSettleTxs) :=
  match pendingSettleTxs.lookup nfa with
  | none => .ok ([], pendingSettleTxs)
  | some list =>
    match list.findIdx? fun tx => tx.tx.amount = amount with
    | some ix =>
      let found := (list[ix]?).toList
      if list.length > 1 then
        .ok (found, pendingSettleTxs.insert nfa (list.take ix ++ list.drop (ix + 1)))
      else .ok (found, pendingSettleTxs.erase nfa)
    | none => do
      let combo ← greedyMatch list amount
      let matched := combo.map Prod.fst
      if combo.length = 0 then return (matched, pendingSettleTxs)
      if combo.length ≠ list.length then
        let remaining := (list.zipIdx.filter (· ∉ combo)).map Prod.fst
        return (matched, pendingSettleTxs.insert nfa remaining)
      else return (matched, pendingSettleTxs.erase nfa)

/-! ## The search -/

section Soundness

def total (combo : List Position) : Nat := (combo.map fun tx => tx.1.tx.amount).sum

variable {address : NobleAddress} {target : Nat} {pending rest path : List Position}
  {index sum : Nat} {deadEnds : DeadEnds}

/-- From no dead end does a combination reach the target. -/
def AllDead (pending : List Position) (target : Nat) (deadEnds : DeadEnds) : Prop :=
  ∀ index sum, (index, sum) ∈ deadEnds →
    ∀ combo, combo.Sublist (pending.drop index) → sum + total combo ≠ target

/-- What a search that went on from `sum` along `path` may come to. -/
def SoundSearch (address : NobleAddress) (target : Nat) (pending rest : List Position) (sum : Nat)
    (path : List Position) : Except MatchFault Search → Prop
  | .error fault => fault = .maxMatchDepth address ∧
      ∃ combo, combo.Sublist rest ∧ (path ++ combo).length = MAX_MATCH_DEPTH ∧
        sum + total combo < target
  | .ok search =>
    match search.found with
    | some found => ∃ combo, combo.Sublist rest ∧ found = path ++ combo ∧
        sum + total combo = target
    | none => AllDead pending target search.deadEnds ∧
        ∀ combo, combo.Sublist rest → sum + total combo ≠ target

@[simp] theorem total_nil : total [] = 0 := rfl

@[simp] theorem total_cons (tx : Position) (combo : List Position) :
    total (tx :: combo) = tx.1.tx.amount + total combo := rfl

theorem dfs_sound {loop : DeadEnds → Except MatchFault Search}
    (hloop : sum < target → path.length < MAX_MATCH_DEPTH → AllDead pending target deadEnds →
      SoundSearch address target pending rest sum path (loop deadEnds))
    (hrest : rest = pending.drop index) (hsum : sum ≤ target)
    (hpath : path.length ≤ MAX_MATCH_DEPTH) (hdead : AllDead pending target deadEnds) :
    SoundSearch address target pending rest sum path
      (dfs address target rest index sum path deadEnds loop) := by
  unfold dfs
  split
  next heq => exact ⟨[], List.nil_sublist _, (List.append_nil _).symm, heq⟩
  next hne =>
    have hlt : sum < target := by omega
    rw [if_neg (by omega)]
    split
    next hdepth =>
      refine ⟨rfl, [], List.nil_sublist _, ?_, hlt⟩
      rw [List.append_nil]
      omega
    next hdepth =>
      split
      next hnil =>
        apply And.intro hdead
        intro combo hcombo
        rw [hnil, List.sublist_nil] at hcombo
        rw [hcombo]
        exact hne
      · split
        next hmem =>
          apply And.intro hdead
          intro combo hcombo
          rw [hrest] at hcombo
          exact hdead index sum hmem combo hcombo
        · have hsound := hloop hlt (not_le.mp hdepth) hdead
          cases hresult : loop deadEnds with
          | error fault =>
            rw [hresult] at hsound
            exact hsound
          | ok search =>
            obtain ⟨found, after⟩ := search
            rw [hresult] at hsound
            cases found with
            | some found => exact hsound
            | none =>
              obtain ⟨hafter, hnone⟩ := hsound
              apply And.intro
              · intro index' sum' hmem
                rcases List.mem_cons.mp hmem with heq | hmem
                · cases heq
                  rw [← hrest]
                  exact hnone
                · exact hafter index' sum' hmem
              · exact hnone

theorem tryEach_sound (address : NobleAddress) (target : Nat) (pending : List Position) :
    ∀ (rest : List Position) (i sum : Nat) (path : List Position) (deadEnds : DeadEnds),
      rest = pending.drop i → sum < target → path.length < MAX_MATCH_DEPTH →
      AllDead pending target deadEnds →
      SoundSearch address target pending rest sum path
        (tryEach address target rest i sum path deadEnds) := by
  intro rest
  induction rest with
  | nil =>
    intro i sum path deadEnds _ hsum _ hdead
    apply And.intro hdead
    intro combo hcombo
    rw [List.sublist_nil.mp hcombo]
    exact hsum.ne
  | cons tx rest ih =>
    intro i sum path deadEnds hrest hsum hpath hdead
    have hrest' : rest = pending.drop (i + 1) := by
      rw [← List.drop_drop, ← hrest]
      rfl
    -- What comes of leaving this transaction out, where taking it came to nothing.
    have hskip : ∀ deadEnds, AllDead pending target deadEnds →
        (∀ combo, combo.Sublist rest → sum + tx.1.tx.amount + total combo ≠ target) →
        SoundSearch address target pending (tx :: rest) sum path
          (tryEach address target rest (i + 1) sum path deadEnds) := by
      intro deadEnds hdead htaken
      have hsound := ih (i + 1) sum path deadEnds hrest' hsum hpath hdead
      cases hresult : tryEach address target rest (i + 1) sum path deadEnds with
      | error fault =>
        rw [hresult] at hsound
        obtain ⟨hfault, combo, hcombo, hlength⟩ := hsound
        exact ⟨hfault, combo, hcombo.cons tx, hlength⟩
      | ok search =>
        obtain ⟨found, after⟩ := search
        rw [hresult] at hsound
        cases found with
        | some found =>
          obtain ⟨combo, hcombo, hfound⟩ := hsound
          exact ⟨combo, hcombo.cons tx, hfound⟩
        | none =>
          obtain ⟨hafter, hnone⟩ := hsound
          apply And.intro hafter
          intro combo hcombo
          rcases List.sublist_cons_iff.mp hcombo with hcombo | ⟨taken, rfl, htaken'⟩
          · exact hnone combo hcombo
          · rw [total_cons, ← Nat.add_assoc]
            exact htaken taken htaken'
    rw [tryEach]
    split
    next hover =>
      apply hskip deadEnds hdead
      intro combo _
      omega
    next hfits =>
      have hsound := dfs_sound (fun hlt hdepth hdead => ih (i + 1) (sum + tx.1.tx.amount)
        (path ++ [tx]) deadEnds hrest' hlt hdepth hdead) hrest' (not_lt.mp hfits)
        (by simpa using hpath) hdead
      cases hresult : dfs address target rest (i + 1) (sum + tx.1.tx.amount) (path ++ [tx])
          deadEnds (tryEach address target rest (i + 1) (sum + tx.1.tx.amount) (path ++ [tx])) with
      | error fault =>
        rw [hresult] at hsound
        obtain ⟨hfault, combo, hcombo, hlength, hbelow⟩ := hsound
        refine ⟨hfault, tx :: combo, hcombo.cons_cons tx, ?_, ?_⟩
        · simpa using hlength
        · rw [total_cons]
          omega
      | ok search =>
        obtain ⟨found, after⟩ := search
        rw [hresult] at hsound
        cases found with
        | some found =>
          obtain ⟨combo, hcombo, hfound, heq⟩ := hsound
          refine ⟨tx :: combo, hcombo.cons_cons tx, ?_, ?_⟩
          · simpa using hfound
          · rw [total_cons]
            omega
        | none => exact hskip after hsound.1 hsound.2

end Soundness

end AgoricSdk.FastUsdc
