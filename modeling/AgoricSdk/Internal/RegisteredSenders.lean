import AgoricSdk.Internal.PrioritySenders
import AgoricSdk.Lib.DelimitedText

/-!
What the manager of priority senders records. As long as no record of an address is replaced or
used after it was dropped, every call sees what the calls before it did, and the stored value of
an address lists the namespaces that still ask for it.
-/

namespace AgoricSdk.PrioritySenders

open TransitionSystem

variable {m t : Manager} {ns address : Text}

section Registration

/-- Whether the last successful call for a namespace and an address was an addition. -/
def registered (calls : List Call) (ns address : Text) : Bool :=
  calls.foldl (fun before call =>
    if call.ns = ns ∧ call.address = address ∧ call.error = none then call.method == .add
    else before) false

theorem registered_append (calls : List Call) (call : Call) (ns address : Text) :
    registered (calls ++ [call]) ns address =
      if call.ns = ns ∧ call.address = address ∧ call.error = none then call.method == .add
      else registered calls ns address := by
  unfold registered
  rw [List.foldl_append]
  rfl

/-- An addition rejects if and only if its pair is registered, and a removal if and only if it
is not. -/
def Faithful (calls : List Call) : Prop :=
  ∀ before call after, calls = before ++ call :: after →
    (call.error ≠ none ↔ registered before call.ns call.address = (call.method == .add))

theorem Faithful.append {calls : List Call} {call : Call} (h : Faithful calls)
    (hcall : call.error ≠ none ↔ registered calls call.ns call.address = (call.method == .add)) :
    Faithful (calls ++ [call]) := by
  intro before call' after heq
  rcases List.eq_nil_or_concat after with rfl | ⟨rest, last, rfl⟩
  · obtain ⟨rfl, hlast⟩ := List.append_inj' heq rfl
    cases hlast
    exact hcall
  · rw [List.concat_eq_append, ← List.cons_append, ← List.append_assoc] at heq
    exact h before call' rest (List.append_inj' heq rfl).1

/-- The stored value lists the registered namespaces in order, and there is none without them. -/
def Lists (calls : List Call) (address : Text) (value : Option Text) : Prop :=
  ∃ namespaces : List Text, namespaces.Pairwise (· < ·) ∧
    (∀ ns, ns ∈ namespaces ↔ registered calls ns address = true) ∧
    value = if namespaces = [] then none else some ([','].intercalate namespaces)

end Registration

section Storage

/-- The storage when the writes that have been sent have been applied. -/
def Manager.written (m : Manager) : Table Text Text := m.writes.foldl setValue m.storage

theorem written_append (m : Manager) (write : Text × Text) :
    ({ m with writes := m.writes ++ [write] } : Manager).written = setValue m.written write := by
  unfold Manager.written
  rw [List.foldl_append]
  rfl

theorem lookup_setValue (storage : Table Text Text) (address value other : Text) :
    (setValue storage (address, value)).lookup other =
      if other = address then (if value = [] then none else some value)
      else storage.lookup other := by
  unfold setValue
  dsimp only
  split
  · rw [Table.lookup_erase]
  · rw [Table.lookup_insert]

theorem namespaceList_lists {calls : List Call} {namespaces : List Text}
    (hnodup : namespaces.Nodup) (hnonempty : ∀ ns ∈ namespaces, ns ≠ [])
    (hmem : ∀ ns, ns ∈ namespaces ↔ registered calls ns address = true) :
    Lists calls address
      (if namespaceList namespaces = [] then none else some (namespaceList namespaces)) := by
  have hperm := List.perm_insertionSort (· ≤ ·) namespaces
  have hle := List.pairwise_insertionSort (· ≤ ·) namespaces
  have hsorted : (namespaces.insertionSort (· ≤ ·)).Pairwise (· < ·) := by
    have hne : (namespaces.insertionSort (· ≤ ·)).Pairwise (· ≠ ·) := hperm.nodup_iff.mpr hnodup
    exact (hle.and hne).imp fun h => lt_of_le_of_ne h.1 h.2
  refine ⟨_, hsorted, fun ns => hperm.mem_iff.trans (hmem ns), ?_⟩
  unfold namespaceList
  have hempty : [','].intercalate (namespaces.insertionSort (· ≤ ·)) = [] ↔
      namespaces.insertionSort (· ≤ ·) = [] := by
    cases hcases : namespaces.insertionSort (· ≤ ·) with
    | nil => exact ⟨fun _ => rfl, fun _ => rfl⟩
    | cons first others =>
      have hfirst : first ≠ [] := by
        apply hnonempty
        apply hperm.mem_iff.mp
        rw [hcases]
        exact List.mem_cons_self
      rw [DelimitedText.intercalate_cons]
      refine ⟨fun hnil => absurd (List.append_eq_nil_iff.mp hnil).1 hfirst, nofun⟩
  by_cases hnil : namespaces.insertionSort (· ≤ ·) = []
  · rw [if_pos (hempty.mpr hnil), if_pos hnil]
  · rw [if_neg fun h => hnil (hempty.mp h), if_neg hnil]

end Storage

section Invariant

def Waiting.held : Waiting → Option ℕ
  | .node => none
  | .record r => some r

/-- A step at which no record goes astray: a node is made for an address that has got no record
in the meantime, and an addition goes on with the record that the address still has. -/
def recordsKept (m : Manager) : SenderEvent → Prop
  | .nodeMade i => ∀ addition ∈ m.additions[i]?, m.addressRecords.lookup addition.address = none
  | .goesOn i => ∀ addition ∈ m.additions[i]?, ∀ r ∈ addition.waiting.held,
    m.addressRecords.lookup addition.address = some r
  | _ => True

instance (m : Manager) (event : SenderEvent) : Decidable (recordsKept m event) := by
  cases event
  all_goals
    unfold recordsKept
    infer_instance

structure RecordOf (m : Manager) (address : Text) (r : ℕ) : Prop where
  made : r < m.sets.length
  nodup : (m.namespaces r).Nodup
  nonempty : ∀ ns ∈ m.namespaces r, ns ≠ []
  registered : ∀ ns, ns ∈ m.namespaces r ↔ registered m.calls ns address = true

structure SendersInv (m : Manager) : Prop where
  records : ∀ address r, m.addressRecords.lookup address = some r → RecordOf m address r
  separate : ∀ address other r, m.addressRecords.lookup address = some r →
    m.addressRecords.lookup other = some r → address = other
  unrecorded : ∀ address, m.addressRecords.lookup address = none →
    ∀ ns, registered m.calls ns address = false
  additions : ∀ addition ∈ m.additions, addition.ns ≠ []
  faithful : Faithful m.calls
  written : ∀ address, Lists m.calls address (m.written.lookup address)

end Invariant

section Calls

variable {r : ℕ} {method : Method} {namespaces : List Text}

theorem registered_rejected (calls : List Call) (method : Method) (ns address : Text)
    (error : SenderError) (ns' address' : Text) :
    registered (calls ++ [⟨method, ns, address, some error⟩]) ns' address' =
      registered calls ns' address' := by
  rw [registered_append, if_neg]
  rintro ⟨-, -, hnone⟩
  cases hnone

theorem registered_other (calls : List Call) (method : Method) (ns : Text)
    {address other : Text} (h : other ≠ address) (ns' : Text) :
    registered (calls ++ [⟨method, ns, address, none⟩]) ns' other =
      registered calls ns' other := by
  rw [registered_append, if_neg]
  rintro ⟨-, heq, -⟩
  exact h heq.symm

theorem SendersInv.rejects (h : SendersInv m) (error : SenderError)
    (hcall : registered m.calls ns address = (method == .add)) :
    SendersInv (m.settles method ns address (some error)) where
  records other r hr := by
    have hrecord := h.records other r hr
    refine ⟨hrecord.made, hrecord.nodup, hrecord.nonempty, fun ns' => ?_⟩
    unfold Manager.settles
    rw [registered_rejected]
    exact hrecord.registered ns'
  separate := h.separate
  unrecorded other hnone ns' := by
    unfold Manager.settles
    rw [registered_rejected]
    exact h.unrecorded other hnone ns'
  additions := h.additions
  faithful := h.faithful.append ⟨fun _ => hcall, fun _ => nofun⟩
  written other := by
    obtain ⟨namespaces, hsorted, hmem, hvalue⟩ := h.written other
    refine ⟨namespaces, hsorted, fun ns' => ?_, hvalue⟩
    unfold Manager.settles
    rw [registered_rejected]
    exact hmem ns'

/-- A call that changes the set of an address, whose record is dropped with its last member. -/
def Manager.changed (m : Manager) (method : Method) (ns address : Text) (r : ℕ)
    (namespaces : List Text) : Manager :=
  { m with
    addressRecords :=
      if namespaces = [] then m.addressRecords.erase address else m.addressRecords
    sets := m.sets.set r namespaces
    writes := m.writes ++ [(address, namespaceList namespaces)]
    calls := m.calls ++ [⟨method, ns, address, none⟩] }

theorem namespaces_set (h : r < m.sets.length) (namespaces : List Text) (r' : ℕ) :
    ({ m with sets := m.sets.set r namespaces } : Manager).namespaces r' =
      if r' = r then namespaces else m.namespaces r' := by
  unfold Manager.namespaces
  dsimp only
  rw [List.getElem?_set]
  by_cases heq : r = r'
  · rw [if_pos heq, if_pos (heq ▸ h), if_pos heq.symm]
    rfl
  · rw [if_neg heq, if_neg fun h => heq h.symm]

theorem addTo_run (h : r < m.sets.length) (hnew : ns ∉ m.namespaces r) :
    m.addTo ns address r = m.changed .add ns address r (m.namespaces r ++ [ns]) := by
  have hself := namespaces_set h (m.namespaces r ++ [ns]) r
  rw [if_pos rfl] at hself
  unfold Manager.addTo
  rw [if_neg hnew]
  unfold Manager.changed Manager.refreshVstorage Manager.settles
  dsimp only
  rw [hself, if_neg (List.append_ne_nil_of_right_ne_nil _ (List.cons_ne_nil _ _))]

theorem remove_run (h : r < m.sets.length) (hr : m.addressRecords.lookup address = some r)
    (hmem : ns ∈ m.namespaces r) :
    m.remove ns address = m.changed .remove ns address r ((m.namespaces r).erase ns) := by
  have hself := namespaces_set h ((m.namespaces r).erase ns) r
  rw [if_pos rfl] at hself
  unfold Manager.remove
  rw [hr]
  dsimp only
  rw [if_pos hmem, hself]
  unfold Manager.changed Manager.refreshVstorage Manager.settles
  split
  · unfold Manager.namespaces at hself ⊢
    dsimp only at hself ⊢
    rw [hself]
  · unfold Manager.namespaces at hself ⊢
    dsimp only at hself ⊢
    rw [hself]

theorem SendersInv.changed (h : SendersInv m) (hr : m.addressRecords.lookup address = some r)
    (hnodup : namespaces.Nodup) (hnonempty : ∀ ns ∈ namespaces, ns ≠ [])
    (hmem : ∀ ns', ns' ∈ namespaces ↔
      registered (m.calls ++ [⟨method, ns, address, none⟩]) ns' address = true)
    (hcall : registered m.calls ns address ≠ (method == .add)) :
    SendersInv (m.changed method ns address r namespaces) := by
  have hmade := (h.records address r hr).made
  have hset : ∀ r', (m.changed method ns address r namespaces).namespaces r' =
      if r' = r then namespaces else m.namespaces r' := namespaces_set hmade namespaces
  -- What the table of records is after the call.
  have hlookup : ∀ other, (m.changed method ns address r namespaces).addressRecords.lookup other =
      if other = address ∧ namespaces = [] then none else m.addressRecords.lookup other := by
    intro other
    unfold Manager.changed
    dsimp only
    by_cases hnil : namespaces = []
    · rw [if_pos hnil, Table.lookup_erase]
      by_cases heq : other = address
      · rw [if_pos heq, if_pos ⟨heq, hnil⟩]
      · rw [if_neg heq, if_neg fun h => heq h.1]
    · rw [if_neg hnil, if_neg fun h => hnil h.2]
  have hkept : ∀ other r',
      (m.changed method ns address r namespaces).addressRecords.lookup other = some r' →
        m.addressRecords.lookup other = some r' := by
    intro other r' hr'
    rw [hlookup] at hr'
    exact (Option.ite_none_left_eq_some.mp hr').2
  constructor
  case records =>
    intro other r' hr'
    have hbefore := hkept other r' hr'
    by_cases heq : other = address
    · rw [heq] at hbefore ⊢
      cases hr.symm.trans hbefore
      have hself := (hset r).trans (if_pos rfl)
      refine ⟨?_, ?_, ?_, ?_⟩
      · exact hmade.trans_eq (List.length_set).symm
      · rw [hself]
        exact hnodup
      · rw [hself]
        exact hnonempty
      · rw [hself]
        exact hmem
    · have hrecord := h.records other r' hbefore
      have hne : r' ≠ r := by
        intro hsame
        exact heq (h.separate other address r' hbefore (hsame ▸ hr))
      have hother := (hset r').trans (if_neg hne)
      refine ⟨?_, ?_, ?_, fun ns' => ?_⟩
      · exact hrecord.made.trans_eq (List.length_set).symm
      · rw [hother]
        exact hrecord.nodup
      · rw [hother]
        exact hrecord.nonempty
      · unfold Manager.changed at hother ⊢
        rw [hother]
        dsimp only
        rw [registered_other _ _ _ heq]
        exact hrecord.registered ns'
  case separate =>
    intro other other' r' hr' hr''
    exact h.separate other other' r' (hkept other r' hr') (hkept other' r' hr'')
  case unrecorded =>
    intro other hnone ns'
    change registered (m.calls ++ _) ns' other = false
    rw [hlookup] at hnone
    by_cases heq : other = address
    · rw [heq, hr] at hnone
      by_cases hnil : namespaces = []
      · rw [heq]
        apply Bool.eq_false_iff.mpr
        intro hregistered
        have hmem' := (hmem ns').mpr hregistered
        rw [hnil] at hmem'
        cases hmem'
      · rw [if_neg fun h => hnil h.2] at hnone
        cases hnone
    · rw [if_neg fun h => heq h.1] at hnone
      rw [registered_other _ _ _ heq]
      exact h.unrecorded other hnone ns'
  case additions => exact h.additions
  case faithful => exact h.faithful.append ⟨fun hne => absurd rfl hne, fun heq => absurd heq hcall⟩
  case written =>
    intro other
    have hwritten : (m.changed method ns address r namespaces).written =
        setValue m.written (address, namespaceList namespaces) := written_append m _
    change Lists (m.calls ++ [⟨method, ns, address, none⟩]) other _
    rw [hwritten, lookup_setValue]
    by_cases heq : other = address
    · rw [if_pos heq, heq]
      exact namespaceList_lists hnodup hnonempty hmem
    · rw [if_neg heq]
      obtain ⟨listed, hsorted, hlisted, hvalue⟩ := h.written other
      refine ⟨listed, hsorted, fun ns' => ?_, hvalue⟩
      rw [registered_other _ _ _ heq]
      exact hlisted ns'

end Calls

section Steps

theorem registered_self (calls : List Call) (method : Method) (ns address ns' : Text) :
    registered (calls ++ [⟨method, ns, address, none⟩]) ns' address =
      if ns = ns' then method == .add else registered calls ns' address := by
  rw [registered_append]
  by_cases heq : ns = ns'
  · rw [if_pos ⟨heq, rfl, rfl⟩, if_pos heq]
  · rw [if_neg fun h => heq h.1, if_neg heq]

theorem SendersInv.addTo (h : SendersInv m) (hns : ns ≠ []) {r : ℕ}
    (hr : m.addressRecords.lookup address = some r) : SendersInv (m.addTo ns address r) := by
  have hrecord := h.records address r hr
  by_cases hmem : ns ∈ m.namespaces r
  · unfold Manager.addTo
    rw [if_pos hmem]
    exact h.rejects _ ((hrecord.registered ns).mp hmem)
  · rw [addTo_run hrecord.made hmem]
    apply h.changed hr
    · apply List.nodup_append.mpr
      refine ⟨hrecord.nodup, List.nodup_singleton _, ?_⟩
      intro a ha b hb heq
      rw [List.mem_singleton.mp hb] at heq
      exact hmem (heq ▸ ha)
    · rw [List.forall_mem_append]
      refine ⟨hrecord.nonempty, fun ns' hns' => ?_⟩
      rw [List.mem_singleton.mp hns']
      exact hns
    · intro ns'
      rw [registered_self, List.mem_append, List.mem_singleton, hrecord.registered]
      by_cases heq : ns = ns'
      · rw [if_pos heq]
        exact ⟨fun _ => rfl, fun _ => .inr heq.symm⟩
      · rw [if_neg heq]
        exact ⟨fun hor => hor.resolve_right (Ne.symm heq), .inl⟩
    · intro hregistered
      exact hmem ((hrecord.registered ns).mpr hregistered)

theorem SendersInv.remove (h : SendersInv m) (ns address : Text) :
    SendersInv (m.remove ns address) := by
  cases hr : m.addressRecords.lookup address with
  | none =>
    unfold Manager.remove
    rw [hr]
    exact h.rejects _ (h.unrecorded address hr ns)
  | some r =>
    have hrecord := h.records address r hr
    by_cases hmem : ns ∈ m.namespaces r
    · rw [remove_run hrecord.made hr hmem]
      apply h.changed hr (hrecord.nodup.erase ns)
      · exact fun ns' hns' => hrecord.nonempty ns' (List.mem_of_mem_erase hns')
      · intro ns'
        rw [registered_self, hrecord.nodup.mem_erase_iff, hrecord.registered]
        by_cases heq : ns = ns'
        · rw [if_pos heq]
          exact ⟨fun hne => absurd heq.symm hne.1, nofun⟩
        · rw [if_neg heq]
          exact ⟨fun hand => hand.2, fun hregistered => ⟨Ne.symm heq, hregistered⟩⟩
      · rw [(hrecord.registered ns).mp hmem]
        exact nofun
    · unfold Manager.remove
      rw [hr]
      dsimp only
      rw [if_neg hmem]
      apply h.rejects
      apply Bool.eq_false_iff.mpr
      exact fun hregistered => hmem ((hrecord.registered ns).mpr hregistered)

theorem SendersInv.provideRecord (h : SendersInv m) {i : ℕ} {addition : Addition}
    (hi : m.additions[i]? = some addition)
    (hnone : m.addressRecords.lookup addition.address = none) :
    SendersInv (m.provideRecord i addition) := by
  have hlookup : ∀ other, (m.provideRecord i addition).addressRecords.lookup other =
      if other = addition.address then some m.sets.length else m.addressRecords.lookup other := by
    intro other
    exact Table.lookup_insert _ _ _ _
  have hold : ∀ r < m.sets.length,
      (m.provideRecord i addition).namespaces r = m.namespaces r := by
    intro r hlt
    unfold Manager.provideRecord Manager.namespaces
    dsimp only
    rw [List.getElem?_append_left hlt]
  have hnew : (m.provideRecord i addition).namespaces m.sets.length = [] := by
    unfold Manager.provideRecord Manager.namespaces
    dsimp only
    rw [List.getElem?_append_right (Nat.le_refl _), Nat.sub_self]
    rfl
  constructor
  case records =>
    intro other r hr
    have hlength : (m.provideRecord i addition).sets.length = m.sets.length + 1 :=
      List.length_append
    rw [hlookup] at hr
    split at hr
    case isTrue heq =>
      cases hr
      refine ⟨?_, ?_, ?_, fun ns' => ?_⟩
      · omega
      · rw [hnew]
        exact List.nodup_nil
      · rw [hnew]
        exact fun ns hns => absurd hns List.not_mem_nil
      · change _ ↔ registered m.calls ns' other = true
        rw [hnew, heq, h.unrecorded _ hnone]
        exact iff_of_false List.not_mem_nil Bool.false_ne_true
    case isFalse =>
      have hrecord := h.records other r hr
      have hsame := hold r hrecord.made
      refine ⟨?_, ?_, ?_, ?_⟩
      · have hmade := hrecord.made
        omega
      · rw [hsame]
        exact hrecord.nodup
      · rw [hsame]
        exact hrecord.nonempty
      · rw [hsame]
        exact hrecord.registered
  case separate =>
    intro other other' r hr hr'
    rw [hlookup] at hr hr'
    split at hr
    case isTrue heq =>
      cases hr
      split at hr'
      case isTrue heq' => rw [heq, heq']
      case isFalse => exact absurd (h.records other' _ hr').made (Nat.lt_irrefl _)
    case isFalse =>
      split at hr'
      case isTrue =>
        cases hr'
        exact absurd (h.records other _ hr).made (Nat.lt_irrefl _)
      case isFalse => exact h.separate other other' r hr hr'
  case unrecorded =>
    intro other hother
    rw [hlookup] at hother
    split at hother
    case isTrue => cases hother
    case isFalse => exact h.unrecorded other hother
  case additions =>
    intro a ha
    rcases List.mem_or_eq_of_mem_set ha with ha | rfl
    · exact h.additions a ha
    · exact h.additions addition (List.mem_of_getElem? hi)
  case faithful => exact h.faithful
  case written => exact h.written

/-- The records do not depend on the additions under way, nor on how far the writes have been
applied. -/
theorem SendersInv.frame (h : SendersInv m) (hrecords : t.addressRecords = m.addressRecords)
    (hsets : t.sets = m.sets) (hcalls : t.calls = m.calls) (hwritten : t.written = m.written)
    (hadditions : ∀ addition ∈ t.additions, addition.ns ≠ []) : SendersInv t where
  records address r hr := by
    rw [hrecords] at hr
    have hrecord := h.records address r hr
    have hsame : t.namespaces r = m.namespaces r := by
      unfold Manager.namespaces
      rw [hsets]
    refine ⟨?_, ?_, ?_, ?_⟩
    · rw [hsets]
      exact hrecord.made
    · rw [hsame]
      exact hrecord.nodup
    · rw [hsame]
      exact hrecord.nonempty
    · rw [hsame, hcalls]
      exact hrecord.registered
  separate := by
    rw [hrecords]
    exact h.separate
  unrecorded := by
    rw [hrecords, hcalls]
    exact h.unrecorded
  additions := hadditions
  faithful := by
    rw [hcalls]
    exact h.faithful
  written := by
    rw [hcalls, hwritten]
    exact h.written

theorem normalize_ne_nil {rawNamespace : Text}
    (h : normalizeSenderNamespace rawNamespace = some ns) : ns ≠ [] := by
  obtain ⟨⟨hlength, -⟩, heq⟩ := Option.ite_none_right_eq_some.mp h
  intro hnil
  rw [Option.some_inj.mp heq, hnil] at hlength
  exact absurd hlength (Nat.not_succ_le_zero 0)

theorem SendersInv.step (h : SendersInv m) {event : SenderEvent} (hok : recordsKept m event)
    (hstep : senderStep m event = some t) : SendersInv t := by
  cases event with
  | add rawNamespace address =>
    unfold senderStep at hstep
    dsimp only at hstep
    cases hns : normalizeSenderNamespace rawNamespace with
    | none =>
      rw [hns] at hstep
      cases hstep
      exact h
    | some ns =>
      rw [hns] at hstep
      cases hstep
      apply h.frame (t := m.add ns address) rfl rfl rfl rfl
      unfold Manager.add
      rw [List.forall_mem_append]
      refine ⟨h.additions, fun addition hmem => ?_⟩
      rw [List.mem_singleton.mp hmem]
      exact normalize_ne_nil hns
  | remove rawNamespace address =>
    unfold senderStep at hstep
    dsimp only at hstep
    cases hns : normalizeSenderNamespace rawNamespace with
    | none =>
      rw [hns] at hstep
      cases hstep
      exact h
    | some ns =>
      rw [hns] at hstep
      cases hstep
      exact h.remove ns address
  | nodeMade i =>
    unfold senderStep at hstep
    dsimp only at hstep
    cases hi : m.additions[i]? with
    | none =>
      rw [hi] at hstep
      cases hstep
    | some addition =>
      rw [hi] at hstep
      dsimp only at hstep
      cases hwaiting : addition.waiting with
      | node =>
        rw [hwaiting] at hstep
        cases hstep
        exact h.provideRecord hi (hok addition hi)
      | record r =>
        rw [hwaiting] at hstep
        cases hstep
  | nodeFails i =>
    unfold senderStep at hstep
    dsimp only at hstep
    cases hi : m.additions[i]? with
    | none =>
      rw [hi] at hstep
      cases hstep
    | some addition =>
      rw [hi] at hstep
      dsimp only at hstep
      cases hwaiting : addition.waiting with
      | node =>
        rw [hwaiting] at hstep
        cases hstep
        exact h.frame rfl rfl rfl rfl fun a ha => h.additions a (List.mem_of_mem_eraseIdx ha)
      | record r =>
        rw [hwaiting] at hstep
        cases hstep
  | goesOn i =>
    unfold senderStep at hstep
    dsimp only at hstep
    cases hi : m.additions[i]? with
    | none =>
      rw [hi] at hstep
      cases hstep
    | some addition =>
      rw [hi] at hstep
      dsimp only at hstep
      cases hwaiting : addition.waiting with
      | node =>
        rw [hwaiting] at hstep
        cases hstep
      | record r =>
        rw [hwaiting] at hstep
        cases hstep
        have hinv : SendersInv { m with additions := m.additions.eraseIdx i } :=
          h.frame rfl rfl rfl rfl fun a ha => h.additions a (List.mem_of_mem_eraseIdx ha)
        exact hinv.addTo (h.additions addition (List.mem_of_getElem? hi))
          (hok addition hi r (by rw [hwaiting]; rfl))
  | writeApplied =>
    unfold senderStep at hstep
    dsimp only at hstep
    cases hwrites : m.writes with
    | nil =>
      rw [hwrites] at hstep
      cases hstep
    | cons write writes =>
      rw [hwrites] at hstep
      cases hstep
      refine h.frame rfl rfl rfl ?_ h.additions
      unfold Manager.written
      rw [hwrites]
      rfl

/-- In every run in which no record goes astray, the calls see what was done before them, and
once all have settled the stored values list what is still asked for. -/
theorem prioritySenders_recorded (h : prioritySenders.Reachable recordsKept m) :
    Faithful m.calls ∧ (m.additions = [] → m.writes = [] → ∀ address,
      Lists m.calls address (m.storage.lookup address) ∧
        (m.isHighPriorityAddress address = true ↔
          ∃ ns, registered m.calls ns address = true)) := by
  have hinv : SendersInv m := by
    apply h.invariant
    · rintro s rfl
      constructor
      case records => exact nofun
      case separate => exact nofun
      case unrecorded => exact fun _ _ _ => rfl
      case additions => exact nofun
      case faithful =>
        intro before call after heq
        cases before <;> cases heq
      case written => exact fun _ => ⟨[], .nil, fun _ => ⟨nofun, nofun⟩, rfl⟩
    · exact fun s event t hs hok hstep => hs.step hok hstep
  refine ⟨hinv.faithful, fun _ hwrites address => ?_⟩
  have hlists := hinv.written address
  unfold Manager.written at hlists
  rw [hwrites] at hlists
  refine ⟨hlists, ?_⟩
  obtain ⟨namespaces, -, hmem, hvalue⟩ := hlists
  unfold Manager.isHighPriorityAddress Table.has
  change m.storage.lookup address = _ at hvalue
  rw [hvalue]
  cases namespaces with
  | nil =>
    refine ⟨nofun, ?_⟩
    rintro ⟨ns, hns⟩
    cases (hmem ns).mpr hns
  | cons ns namespaces =>
    exact ⟨fun _ => ⟨ns, (hmem ns).mp List.mem_cons_self⟩, fun _ => rfl⟩

/-- Two namespaces ask for an address one after the other, and one of them gives it up. -/
def orderlySenders : List SenderEvent :=
  [.add ['o', ' '] ['x'], .nodeMade 0, .goesOn 0, .add ['e'] ['x'], .goesOn 0, .writeApplied,
    .remove ['o', '_'] ['x'], .writeApplied, .writeApplied]

theorem prioritySenders_recorded_orderly : ∃ m : Manager,
    (m.storage.lookup ['x'] = some ['e'] ∧ m.additions = [] ∧ m.writes = []) ∧
      Faithful m.calls ∧ ∀ address,
        Lists m.calls address (m.storage.lookup address) ∧
          (m.isHighPriorityAddress address = true ↔
            ∃ ns, registered m.calls ns address = true) := by
  have hrun : (prioritySenders.runWhile recordsKept {} orderlySenders).map (fun m =>
      (m.storage.lookup ['x'], m.additions, m.writes)) = some (some ['e'], [], []) := by
    decide +kernel
  obtain ⟨m, hm, heq⟩ := Option.map_eq_some_iff.mp hrun
  simp only [Prod.mk.injEq] at heq
  obtain ⟨hstored, hadditions, hwrites⟩ := heq
  obtain ⟨hfaithful, hlists⟩ := prioritySenders_recorded (.of_runWhile (.init rfl) hm)
  exact ⟨m, ⟨hstored, hadditions, hwrites⟩, hfaithful, hlists hadditions hwrites⟩

/-- Two namespaces ask for an address at the same time, and one of them is forgotten. -/
theorem prioritySenders_overlapping : ¬ ∀ m : Manager, prioritySenders.Reachable anyStep m →
    Faithful m.calls ∧ (m.additions = [] → m.writes = [] → ∀ address,
      Lists m.calls address (m.storage.lookup address) ∧
        (m.isHighPriorityAddress address = true ↔
          ∃ ns, registered m.calls ns address = true)) := by
  intro hall
  have hrun : (prioritySenders.runWhile anyStep {}
      [.add ['o'] ['x'], .add ['e'] ['x'], .nodeMade 0, .nodeMade 1, .goesOn 0, .goesOn 0,
        .writeApplied, .writeApplied]).map (fun m =>
      (m.calls, m.storage.lookup ['x'], m.additions.isEmpty && m.writes.isEmpty)) =
      some ([⟨.add, ['o'], ['x'], none⟩, ⟨.add, ['e'], ['x'], none⟩], some ['e'], true) := by
    decide +kernel
  obtain ⟨m, hm, heq⟩ := Option.map_eq_some_iff.mp hrun
  simp only [Prod.mk.injEq] at heq
  obtain ⟨hcalls, hstored, hsettled⟩ := heq
  rw [Bool.and_eq_true, List.isEmpty_iff, List.isEmpty_iff] at hsettled
  obtain ⟨-, hlists⟩ := hall m (.of_runWhile (.init rfl) hm)
  obtain ⟨⟨namespaces, -, hmem, hvalue⟩, -⟩ := hlists hsettled.1 hsettled.2 ['x']
  have hfirst : ['o'] ∈ namespaces := by
    apply (hmem ['o']).mpr
    rw [hcalls]
    rfl
  have hsecond : ['e'] ∈ namespaces := by
    apply (hmem ['e']).mpr
    rw [hcalls]
    rfl
  rw [hstored] at hvalue
  cases namespaces with
  | nil => cases hfirst
  | cons first others =>
    rw [if_neg (List.cons_ne_nil _ _), DelimitedText.intercalate_cons] at hvalue
    cases others with
    | nil =>
      rw [List.mem_singleton] at hfirst hsecond
      cases hfirst.trans hsecond.symm
    | cons second others =>
      have hcomma : ',' ∈ ['e'] := by
        rw [Option.some_inj.mp hvalue]
        simp
      cases hcomma with
      | tail _ hnil => cases hnil

end Steps

end AgoricSdk.PrioritySenders
