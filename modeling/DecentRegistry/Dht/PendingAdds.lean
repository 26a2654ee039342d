import DecentRegistry.Dht.Referrals

/-!
# Adds that wait for the table

The table's `add_peer` may be suspended before it inserts its peer, and other calls run meanwhile.
The entry of the peer was written, or checked, before; what inserts the peer does not look at it
again. Every other step keeps the peers that were added in the map (`Guarded.step`), so the peers of
the table that were added through the wrapper have entries in every state of a run whose suspended
adds find one (`noIneligiblePeer_run`). -/

namespace DecentRegistry

open RoutingEligibility

variable {Peer Key T : Type} [DecidableEq Peer]

/-- A `RoutingEligibility` with the calls that wait for the table's `add_peer` before it inserts the
peer, and the peers that were added through the wrapper. -/
structure WaitingAdds (Peer T : Type) where
  eligibility : RoutingEligibility Peer T
  pending : List (Peer × Bool)
  added : Finset Peer

/-- What the tasks do between two waits. -/
inductive TaskAction (Peer Key : Type)
  | recordProof (peer : Peer)
  | checkedAdd (peer : Peer) (skipServerModeCheck : Bool)
  | isEligible (peer : Peer)
  | find (key : Key) (count : ℕ)
  | clear
  | insert (peer : Peer) (skipServerModeCheck : Bool)
  | abandon (peer : Peer) (skipServerModeCheck : Bool)

namespace WaitingAdds

/-- A new `RoutingEligibility`. -/
def new (t : T) : WaitingAdds Peer T := { eligibility := .new t, pending := [], added := ∅ }

variable (table : RoutingTable Peer Key T) (clock : ℕ → ℚ)

/-- A check of a peer. -/
def check (s : WaitingAdds Peer T) (peer : Peer) : WaitingAdds Peer T :=
  { s with eligibility := (s.eligibility.isEligible table clock peer).2 }

/-- One step of one of the tasks. -/
inductive Step (s : WaitingAdds Peer T) : TaskAction Peer Key → WaitingAdds Peer T → Prop
  /-- `record_valid_response` comes to its wait. -/
  | recordProof (peer : Peer) :
      Step s (.recordProof peer)
        { s with
          eligibility := s.eligibility.recordProof table clock peer
          pending := s.pending ++ [(peer, false)] }
  /-- `_guarded_add` of a peer that is not eligible returns. -/
  | refuse {peer : Peer} {skipServerModeCheck : Bool}
      (h : (s.eligibility.isEligible table clock peer).1 = false) :
      Step s (.checkedAdd peer skipServerModeCheck) (s.check table clock peer)
  /-- `_guarded_add` of an eligible peer comes to its wait. -/
  | suspend {peer : Peer} {skipServerModeCheck : Bool}
      (h : (s.eligibility.isEligible table clock peer).1 = true) :
      Step s (.checkedAdd peer skipServerModeCheck)
        { s.check table clock peer with pending := s.pending ++ [(peer, skipServerModeCheck)] }
  | isEligible (peer : Peer) : Step s (.isEligible peer) (s.check table clock peer)
  | find (key : Key) (count : ℕ) :
      Step s (.find key count)
        { s with eligibility := (s.eligibility.guardedFind table clock key count).2 }
  /-- `clear`, as a switch of the mode calls it. -/
  | clear : Step s .clear { s with eligibility := s.eligibility.clear table }
  /-- A suspended `add_peer` inserts its peer, and the call that waits for it returns. -/
  | insert {before later : List (Peer × Bool)} {peer : Peer} {skipServerModeCheck : Bool}
      (h : s.pending = before ++ (peer, skipServerModeCheck) :: later) :
      Step s (.insert peer skipServerModeCheck)
        { eligibility := (s.eligibility.addToTable table peer skipServerModeCheck).2
          pending := before ++ later
          added := Insert.insert peer s.added }
  /-- A suspended `add_peer` ends without inserting its peer. -/
  | abandon {before later : List (Peer × Bool)} {peer : Peer} {skipServerModeCheck : Bool}
      (h : s.pending = before ++ (peer, skipServerModeCheck) :: later) :
      Step s (.abandon peer skipServerModeCheck) { s with pending := before ++ later }

/-- The states reached by steps that are allowed in the state they are made in. -/
inductive Run (t : T) (Allowed : WaitingAdds Peer T → TaskAction Peer Key → Prop) :
    WaitingAdds Peer T → Prop
  | new : Run t Allowed (.new t)
  | step {s s' : WaitingAdds Peer T} {action : TaskAction Peer Key} (h : Run t Allowed s)
      (allowed : Allowed s action) (hstep : Step table clock s action s') : Run t Allowed s'

/-- A suspended add that inserts its peer finds an entry of the peer. -/
def FindsEntry (s : WaitingAdds Peer T) : TaskAction Peer Key → Prop
  | .insert peer _ => peer ∈ s.eligibility.expires.keys
  | _ => True

end WaitingAdds

/-- The table removes the peers it is told to, and adds only those. -/
structure RoutingTable.Keeps (table : RoutingTable Peer Key T) : Prop where
  of_remove : ∀ peer q t, q ∈ table.peers (table.removePeer peer t) → q ∈ table.peers t ∧ q ≠ peer
  of_add : ∀ peer skipServerModeCheck q t,
    q ∈ table.peers (table.addPeer peer skipServerModeCheck t).2 → q = peer ∨ q ∈ table.peers t

/-- The peers of the table that were added through the wrapper have entries. -/
def Guarded (table : RoutingTable Peer Key T) (added : Finset Peer)
    (s : RoutingEligibility Peer T) : Prop :=
  ∀ peer ∈ table.peers s.table, peer ∈ added → peer ∈ s.expires.keys

variable {table : RoutingTable Peer Key T} {clock : ℕ → ℚ} {added : Finset Peer} {peer : Peer}

namespace Guarded

variable {s : RoutingEligibility Peer T}

omit [DecidableEq Peer] in
/-- Removing peers one after the other. -/
theorem of_foldl_remove (htable : table.Keeps) {peers : List Peer} {t : T} {q : Peer}
    (hq : q ∈ table.peers (peers.foldl (fun t peer => table.removePeer peer t) t)) :
    q ∈ table.peers t ∧ q ∉ peers := by
  induction peers generalizing t with
  | nil => exact ⟨hq, List.not_mem_nil⟩
  | cons peer rest ih =>
    obtain ⟨hmem, hrest⟩ := ih hq
    obtain ⟨hmem', hne⟩ := htable.of_remove peer q t hmem
    refine ⟨hmem', ?_⟩
    rw [List.mem_cons, not_or]
    exact ⟨hne, hrest⟩

omit [DecidableEq Peer] in
/-- The readings of the clock do not matter. -/
theorem congr {s' : RoutingEligibility Peer T} (h : Guarded table added s)
    (hexpires : s'.expires = s.expires) (htable : s'.table = s.table) :
    Guarded table added s' := by
  rw [Guarded, hexpires, htable]
  exact h

/-- Dropping a peer. -/
theorem drop (h : Guarded table added s) (htable : table.Keeps) (peer : Peer) :
    Guarded table added (s.drop table peer) := by
  intro q hq hadded
  obtain ⟨hmem, hne⟩ := htable.of_remove peer q s.table hq
  obtain ⟨expiry, hget⟩ := OrderedMap.mem_keys.1 (h q hmem hadded)
  apply OrderedMap.mem_keys.2
  exact ⟨expiry, by rw [RoutingEligibility.drop, OrderedMap.get?_erase, if_neg hne, hget]⟩

/-- A check. -/
theorem isEligible (h : Guarded table added s) (htable : table.Keeps) (peer : Peer) :
    Guarded table added (s.isEligible table clock peer).2 := by
  rcases isEligible_cases table clock s peer with ⟨-, heq⟩ | ⟨-, -, -, heq⟩ | ⟨-, -, -, heq⟩
  · rw [heq]
    exact h
  · rw [heq]
    exact (h.drop htable peer).congr rfl rfl
  · rw [heq]
    exact h.congr rfl rfl

/-- The checks of a find. -/
theorem filterEligible (h : Guarded table added s) (htable : table.Keeps) (peers : List Peer) :
    Guarded table added (s.filterEligible table clock peers).2 := by
  induction peers generalizing s with
  | nil => exact h
  | cons peer rest ih => exact ih (h.isEligible htable peer)

/-- A new entry. -/
theorem set (h : Guarded table added s) (peer : Peer) (expiry : ℚ) (readings : ℕ) :
    Guarded table added { s with expires := s.expires.set peer expiry, readings } := by
  intro q hq hadded
  obtain ⟨old, hget⟩ := OrderedMap.mem_keys.1 (h q hq hadded)
  apply OrderedMap.mem_keys.2
  rw [OrderedMap.get?_set]
  split
  · exact ⟨expiry, rfl⟩
  · exact ⟨old, hget⟩

/-- An eviction, where the map is full, and a new entry. -/
theorem recordProof (h : Guarded table added s) (htable : table.Keeps) (peer : Peer) :
    Guarded table added (s.recordProof table clock peer) := by
  cases hevicted : s.evicted peer with
  | none =>
    simp only [RoutingEligibility.recordProof, hevicted]
    exact h.set peer _ _
  | some oldestPeer =>
    simp only [RoutingEligibility.recordProof, hevicted]
    exact (h.drop htable oldestPeer).set peer _ _

omit [DecidableEq Peer] in
/-- A clearing removes every peer with an entry from the table, and with them all that were
added. -/
theorem clear (h : Guarded table added s) (htable : table.Keeps) :
    Guarded table added (s.clear table) := by
  intro q hq hadded
  obtain ⟨hmem, hnot⟩ := of_foldl_remove htable hq
  exact absurd (h q hmem hadded) hnot

/-- An insertion, of a peer with an entry. -/
theorem insert (h : Guarded table added s) (htable : table.Keeps) (hpeer : peer ∈ s.expires.keys)
    (skipServerModeCheck : Bool) :
    Guarded table (Insert.insert peer added) (s.addToTable table peer skipServerModeCheck).2 := by
  intro q hq hadded
  rcases htable.of_add peer skipServerModeCheck q s.table hq with rfl | hmem
  · exact hpeer
  · rcases Finset.mem_insert.1 hadded with rfl | hadded
    · exact hpeer
    · exact h q hmem hadded

/-- **One step keeps the table guarded**, if the add that it inserts finds an entry. -/
theorem step {s s' : WaitingAdds Peer T} {action : TaskAction Peer Key}
    (h : Guarded table s.added s.eligibility) (htable : table.Keeps)
    (hfinds : s.FindsEntry action) (hstep : WaitingAdds.Step table clock s action s') :
    Guarded table s'.added s'.eligibility := by
  cases hstep with
  | recordProof peer => exact h.recordProof htable peer
  | refuse => exact h.isEligible htable _
  | suspend => exact h.isEligible htable _
  | isEligible peer => exact h.isEligible htable peer
  | find key count => exact h.filterEligible htable _
  | clear => exact h.clear htable
  | insert => exact h.insert htable hfinds _
  | abandon => exact h

end Guarded

/-- An insertion of a peer without an entry leaves a peer in the table that has none. -/
theorem not_guarded_insert {s s' : WaitingAdds Peer T} {skipServerModeCheck : Bool}
    (hstep : WaitingAdds.Step table clock s (.insert peer skipServerModeCheck) s')
    (hentry : peer ∉ s.eligibility.expires.keys)
    (htaken : peer ∈ table.peers s'.eligibility.table) :
    ¬ Guarded table s'.added s'.eligibility := by
  intro hguarded
  cases hstep with
  | insert => exact hentry (hguarded peer htaken (Finset.mem_insert_self peer s.added))

/-! ## A sample run -/

namespace Sample

theorem finsetTable_keeps : finsetTable.Keeps where
  of_remove _ _ _ hq := ⟨Finset.mem_of_mem_erase hq, Finset.ne_of_mem_erase hq⟩
  of_add _ _ _ _ hq := Finset.mem_insert.1 hq

/-- A valid response is recorded, and its add waits. -/
def waitingResponse : WaitingAdds ℕ (Finset ℕ) :=
  { eligibility := (RoutingEligibility.new ∅).recordProof finsetTable steadyClock 5
    pending := [(5, false)]
    added := ∅ }

theorem waitingResponse_step :
    WaitingAdds.Step finsetTable steadyClock (.new ∅) (.recordProof 5) waitingResponse :=
  .recordProof 5

/-- The add that waits inserts its peer. -/
def insertWaiting (s : WaitingAdds ℕ (Finset ℕ)) : WaitingAdds ℕ (Finset ℕ) :=
  { eligibility := (s.eligibility.addToTable finsetTable 5 false).2, pending := [],
    added := insert 5 s.added }

theorem insertWaiting_step {s : WaitingAdds ℕ (Finset ℕ)} (h : s.pending = [(5, false)]) :
    WaitingAdds.Step finsetTable steadyClock s (.insert 5 false) (insertWaiting s) :=
  @WaitingAdds.Step.insert _ _ _ _ finsetTable steadyClock s [] [] 5 false h

/-- A switch of the mode clears the proofs meanwhile. -/
def clearedResponse : WaitingAdds ℕ (Finset ℕ) :=
  { waitingResponse with eligibility := waitingResponse.eligibility.clear finsetTable }

theorem clearedResponse_step :
    WaitingAdds.Step finsetTable steadyClock waitingResponse .clear clearedResponse :=
  .clear

end Sample

/-- **No ineligible peer stays in the table**, in every run in which the suspended adds find an
entry of the peer they insert: in every state, the peers of the table that were added through the
wrapper have entries. A suspended add that finds none, and whose peer the table takes, breaks it. -/
theorem noIneligiblePeer_run (table : RoutingTable Peer Key T) (htable : table.Keeps)
    (clock : ℕ → ℚ) (t : T) :
    (∀ s, WaitingAdds.Run table clock t WaitingAdds.FindsEntry s →
      Guarded table s.added s.eligibility) ∧
    ∀ s s' peer skipServerModeCheck,
      WaitingAdds.Step table clock s (.insert peer skipServerModeCheck) s' →
      ¬ s.FindsEntry (.insert peer skipServerModeCheck : TaskAction Peer Key) →
      peer ∈ table.peers s'.eligibility.table → ¬ Guarded table s'.added s'.eligibility := by
  constructor
  · intro s h
    induction h with
    | new =>
      intro peer _ hadded
      exact absurd hadded (Finset.notMem_empty peer)
    | step _ allowed hstep ih => exact ih.step htable allowed hstep
  · intro s s' peer skipServerModeCheck hstep hentry htaken
    exact not_guarded_insert hstep hentry htaken

/-- A valid response is recorded, and its add is not disturbed. -/
theorem waitingResponse_guarded :
    Guarded Sample.finsetTable (Sample.insertWaiting Sample.waitingResponse).added
      (Sample.insertWaiting Sample.waitingResponse).eligibility := by
  have hfinds : Sample.waitingResponse.FindsEntry (.insert 5 false : TaskAction ℕ Unit) := by
    change 5 ∈ Sample.waitingResponse.eligibility.expires.keys
    decide
  have hfirst : (WaitingAdds.new ∅ : WaitingAdds ℕ (Finset ℕ)).FindsEntry
      (.recordProof 5 : TaskAction ℕ Unit) := trivial
  have hwaiting : WaitingAdds.Run Sample.finsetTable Sample.steadyClock ∅ WaitingAdds.FindsEntry
      Sample.waitingResponse := .step .new hfirst Sample.waitingResponse_step
  have hrun := hwaiting.step hfinds (Sample.insertWaiting_step rfl)
  exact (noIneligiblePeer_run Sample.finsetTable Sample.finsetTable_keeps Sample.steadyClock ∅).1
    _ hrun

/-- The mode is switched while the add of a proven peer is suspended. Then no call is pending, and
the table has a peer that was added through the wrapper and has no entry. -/
theorem clearedPeer_inserted :
    ∃ s, WaitingAdds.Run Sample.finsetTable Sample.steadyClock ∅ (fun _ _ => True) s ∧
      s.pending = [] ∧ 5 ∈ Sample.finsetTable.peers s.eligibility.table ∧ 5 ∈ s.added ∧
      s.eligibility.expires.get? 5 = none := by
  have hwaiting : WaitingAdds.Run Sample.finsetTable Sample.steadyClock ∅ (fun _ _ => True)
      Sample.waitingResponse := .step .new trivial Sample.waitingResponse_step
  have hcleared := hwaiting.step trivial Sample.clearedResponse_step
  have hinserted := hcleared.step trivial (Sample.insertWaiting_step rfl)
  exact ⟨_, hinserted, rfl, Finset.mem_insert_self _ _, Finset.mem_insert_self _ _, rfl⟩

end DecentRegistry
