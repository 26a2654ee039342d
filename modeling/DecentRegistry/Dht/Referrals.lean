import DecentRegistry.Model.Dht.RoutingEligibility
import Mathlib.Data.Finset.Sort
import Mathlib.Tactic.Linarith

/-!
# Referrals

What a sequence of calls of a `RoutingEligibility` proves of the peers is read off its trace: the
proofs recorded, the evictions and the clearings. The map of expiries keeps the last proof of every
peer, up to those that have expired (`Records`), so a check is the question whether the last proof
is fresh (`Records.isEligible_eq`), and the referrals are the closest peers of the whole table among
the fresh ones (`referrals_closest`). A proof is fresh until the float that the time to live added
to its time gives, which is not always as long as the time to live (`roundedProof_dropped`). -/

namespace DecentRegistry

open RoutingEligibility

variable {Peer Key T : Type} [DecidableEq Peer]

/-! ## Traces -/

/-- What happens to the proofs: a valid response at some time, an eviction, or a clearing. -/
inductive ProofEvent (Peer : Type)
  | recorded (peer : Peer) (time : ℚ)
  | evicted (peer : Peer)
  | cleared

/-- The last proof of a peer after an event. -/
def ProofEvent.proofAfter (peer : Peer) (proof : Option ℚ) : ProofEvent Peer → Option ℚ
  | .recorded q time => if peer = q then some time else proof
  | .evicted q => if peer = q then none else proof
  | .cleared => none

/-- When the last valid response of a peer was recorded, if it was not evicted or cleared since. -/
def lastProof (trace : List (ProofEvent Peer)) (peer : Peer) : Option ℚ :=
  trace.foldl (fun proof event => event.proofAfter peer proof) none

/-- The clock is before the sum, as floats, of the time of the last valid response of a peer and the
time to live, and the response was not evicted or cleared since. -/
def isFresh (trace : List (ProofEvent Peer)) (now : ℚ) (peer : Peer) : Bool :=
  (lastProof trace peer).any fun time => now < Binary64.add time servingProofTtlSeconds

/-- The calls of a `RoutingEligibility`. -/
inductive RoutingCall (Peer Key : Type)
  | recordValidResponse (peer : Peer)
  | addPeer (peer : Peer) (skipServerModeCheck : Bool)
  | findLocalClosestPeers (key : Key) (count : ℕ)
  | isEligible (peer : Peer)
  | clear

namespace RoutingCall

variable (table : RoutingTable Peer Key T) (clock : ℕ → ℚ)

/-- The state after a call. -/
def after (s : RoutingEligibility Peer T) : RoutingCall Peer Key → RoutingEligibility Peer T
  | .recordValidResponse peer => s.recordValidResponse table clock peer
  | .addPeer peer skipServerModeCheck => (s.guardedAdd table clock peer skipServerModeCheck).2
  | .findLocalClosestPeers key count => (s.guardedFind table clock key count).2
  | .isEligible peer => (s.isEligible table clock peer).2
  | .clear => s.clear table

/-- What a call does to the proofs. -/
def events (s : RoutingEligibility Peer T) : RoutingCall Peer Key → List (ProofEvent Peer)
  | .recordValidResponse peer =>
    (s.evicted peer).toList.map .evicted ++ [.recorded peer (clock s.readings)]
  | .addPeer _ _ => []
  | .findLocalClosestPeers _ _ => []
  | .isEligible _ => []
  | .clear => [.cleared]

end RoutingCall

/-- The states reached by calls, with their traces, from a new `RoutingEligibility`. -/
inductive RoutingRun (table : RoutingTable Peer Key T) (clock : ℕ → ℚ) (t : T) :
    List (ProofEvent Peer) → RoutingEligibility Peer T → Prop
  | new : RoutingRun table clock t [] (.new t)
  | call {trace : List (ProofEvent Peer)} {s : RoutingEligibility Peer T}
      (h : RoutingRun table clock t trace s) (c : RoutingCall Peer Key) :
      RoutingRun table clock t (trace ++ c.events clock s) (c.after table clock s)

/-- The peers of the table, the closest first. -/
structure ClosestFirst (table : RoutingTable Peer Key T) (distance : Key → Peer → ℕ) (t : T)
    (key : Key) (order : List Peer) : Prop where
  nodup : order.Nodup
  toFinset : order.toFinset = table.peers t
  sorted : order.Pairwise fun p q => distance key p ≤ distance key q

/-- The table finds its `n` closest peers, in order, and knows how many peers it has. -/
structure RoutingTable.FindsClosest (table : RoutingTable Peer Key T)
    (distance : Key → Peer → ℕ) : Prop where
  find : ∀ t key n, ∃ order, ClosestFirst table distance t key order ∧
    table.findLocalClosestPeers t key n = order.take n
  size : ∀ t, table.size t = (table.peers t).card

/-! ## What the map records -/

/-- The map has room for no more than `maxEligiblePeers`, its entries are the last proofs, and a
proof without an entry had expired at an earlier reading of the clock. -/
structure Records (clock : ℕ → ℚ) (trace : List (ProofEvent Peer))
    (s : RoutingEligibility Peer T) : Prop where
  size_le : s.expires.size ≤ maxEligiblePeers
  of_entry : ∀ peer expiry, s.expires.get? peer = some expiry →
    ∃ time, lastProof trace peer = some time ∧
      expiry = Binary64.add time servingProofTtlSeconds
  of_no_entry : ∀ peer time, s.expires.get? peer = none → lastProof trace peer = some time →
    ∃ k < s.readings, Binary64.add time servingProofTtlSeconds ≤ clock k

variable {table : RoutingTable Peer Key T} {clock : ℕ → ℚ} {trace : List (ProofEvent Peer)}
  {s : RoutingEligibility Peer T} {peer : Peer}

theorem lastProof_append (events : List (ProofEvent Peer)) :
    lastProof (trace ++ events) peer =
      events.foldl (fun proof event => event.proofAfter peer proof) (lastProof trace peer) :=
  List.foldl_append

/-- Up to the rounding of one sum, the fresh peers are those whose last valid response is less than
the time to live old. -/
theorem isFresh_of_age_lt {time now : ℚ} (hlast : lastProof trace peer = some time)
    (h : now - time <
      servingProofTtlSeconds - Binary64.ulp (time + servingProofTtlSeconds) / 2) :
    isFresh trace now peer = true := by
  have hround := (abs_le.1 (Binary64.abs_nearest_sub_le (time + servingProofTtlSeconds))).1
  have hbefore : now < Binary64.add time servingProofTtlSeconds := by
    rw [Binary64.add]
    linarith
  simp [isFresh, hlast, hbefore]

theorem age_lt_of_isFresh {now : ℚ} (h : isFresh trace now peer = true) :
    ∃ time, lastProof trace peer = some time ∧ now - time <
      servingProofTtlSeconds + Binary64.ulp (time + servingProofTtlSeconds) / 2 := by
  obtain ⟨time, hlast, hbefore⟩ := (Option.any_eq_true _ _).1 h
  have hround := (abs_le.1 (Binary64.abs_nearest_sub_le (time + servingProofTtlSeconds))).2
  rw [decide_eq_true_eq, Binary64.add] at hbefore
  exact ⟨time, hlast, by linarith⟩

/-- Asked for as many peers as it has, the table finds all of them. -/
theorem RoutingTable.FindsClosest.find_all {distance : Key → Peer → ℕ}
    (h : table.FindsClosest distance) (t : T) (key : Key) (count : ℕ) :
    ClosestFirst table distance t key
      (table.findLocalClosestPeers t key (max count (table.size t))) := by
  obtain ⟨order, horder, hfind⟩ := h.find t key (max count (table.size t))
  have hlength : order.length = table.size t := by
    rw [h.size, ← horder.toFinset, List.toFinset_card_of_nodup horder.nodup]
  rw [hfind, List.take_of_length_le (by omega)]
  exact horder

theorem records_new (t : T) : Records clock ([] : List (ProofEvent Peer)) (.new t) where
  size_le := Nat.zero_le _
  of_entry _ _ h := by cases h
  of_no_entry _ _ _ h := by cases h

namespace Records

/-- What the table holds does not matter, and later readings neither. -/
theorem congr (h : Records clock trace s) {s' : RoutingEligibility Peer T}
    (hexpires : s'.expires = s.expires) (hreadings : s.readings ≤ s'.readings) :
    Records clock trace s' where
  size_le := hexpires ▸ h.size_le
  of_entry := hexpires ▸ h.of_entry
  of_no_entry p time hnone hlast := by
    rw [hexpires] at hnone
    obtain ⟨k, hk, hexpired⟩ := h.of_no_entry p time hnone hlast
    exact ⟨k, by omega, hexpired⟩

/-- Who has no entry is not fresh, now and later. -/
theorem not_isFresh (h : Records clock trace s) (hclock : Monotone clock)
    (hnone : s.expires.get? peer = none) {k : ℕ} (hk : s.readings ≤ k) :
    isFresh trace (clock k) peer = false := by
  rw [isFresh]
  cases hlast : lastProof trace peer with
  | none => rfl
  | some time =>
    obtain ⟨j, hj, hexpired⟩ := h.of_no_entry peer time hnone hlast
    have hle : clock j ≤ clock k := hclock (hj.le.trans hk)
    simp [not_lt.2 (hexpired.trans hle)]

/-- **A check is the question whether the last proof is fresh** at the reading of the clock that
comes next. -/
theorem isEligible_eq (table : RoutingTable Peer Key T) (h : Records clock trace s)
    (hclock : Monotone clock) (peer : Peer) :
    (s.isEligible table clock peer).1 = isFresh trace (clock s.readings) peer := by
  rcases isEligible_cases table clock s peer with ⟨hnone, heq⟩ | ⟨expiry, hsome, hexpired, heq⟩ |
    ⟨expiry, hsome, hfresh, heq⟩
  · rw [heq, h.not_isFresh hclock hnone (le_refl _)]
  · obtain ⟨time, hlast, rfl⟩ := h.of_entry peer expiry hsome
    simp [heq, isFresh, hlast, not_lt.2 hexpired]
  · obtain ⟨time, hlast, rfl⟩ := h.of_entry peer expiry hsome
    simp [heq, isFresh, hlast, hfresh]

/-- A check keeps what is recorded: it drops an entry only when it has expired. -/
theorem isEligible (table : RoutingTable Peer Key T) (h : Records clock trace s) (peer : Peer) :
    Records clock trace (s.isEligible table clock peer).2 := by
  rcases isEligible_cases table clock s peer with ⟨hnone, heq⟩ | ⟨expiry, hsome, hexpired, heq⟩ |
    ⟨expiry, hsome, hfresh, heq⟩
  · rw [heq]
    exact h
  · rw [heq]
    refine ⟨le_trans OrderedMap.size_erase_le h.size_le, ?_, ?_⟩
    · intro p e hget
      rw [OrderedMap.get?_erase] at hget
      split at hget
      · cases hget
      · exact h.of_entry p e hget
    · intro p time hget hlast
      rw [OrderedMap.get?_erase] at hget
      split at hget
      · rename_i hp
        subst hp
        obtain ⟨time', hlast', rfl⟩ := h.of_entry p expiry hsome
        rw [hlast] at hlast'
        obtain rfl := Option.some.inj hlast'
        exact ⟨s.readings, Nat.lt_succ_self _, hexpired⟩
      · obtain ⟨k, hk, hle⟩ := h.of_no_entry p time hget hlast
        exact ⟨k, Nat.lt_succ_of_lt hk, hle⟩
  · rw [heq]
    exact h.congr rfl (Nat.le_succ _)

/-- Whoever is recorded has an entry until the next event on them: the proofs after an eviction. -/
theorem drop (table : RoutingTable Peer Key T) (h : Records clock trace s) (peer : Peer) :
    Records clock (trace ++ [.evicted peer]) (s.drop table peer) where
  size_le := le_trans OrderedMap.size_erase_le h.size_le
  of_entry p e hget := by
    rw [RoutingEligibility.drop, OrderedMap.get?_erase] at hget
    split at hget
    · cases hget
    · rename_i hp
      obtain ⟨time, hlast, he⟩ := h.of_entry p e hget
      refine ⟨time, ?_, he⟩
      rw [lastProof_append, List.foldl_cons, List.foldl_nil, ProofEvent.proofAfter,
        if_neg hp, hlast]
  of_no_entry p time hget hlast := by
    rw [lastProof_append, List.foldl_cons, List.foldl_nil, ProofEvent.proofAfter] at hlast
    split at hlast
    · cases hlast
    · rename_i hp
      rw [RoutingEligibility.drop, OrderedMap.get?_erase, if_neg hp] at hget
      exact h.of_no_entry p time hget hlast

/-- A proof is recorded, where there is room for it. -/
theorem record (h : Records clock trace s) (peer : Peer)
    (hroom : peer ∈ s.expires.keys ∨ s.expires.size < maxEligiblePeers) :
    Records clock (trace ++ [.recorded peer (clock s.readings)])
      { s with
        expires := s.expires.set peer (Binary64.add (clock s.readings) servingProofTtlSeconds)
        readings := s.readings + 1 } where
  size_le := by
    rcases hroom with hmem | hlt
    · exact (OrderedMap.size_set_of_mem hmem).trans_le h.size_le
    · exact le_trans OrderedMap.size_set_le hlt
  of_entry p e hget := by
    rw [lastProof_append, List.foldl_cons, List.foldl_nil, ProofEvent.proofAfter]
    rw [OrderedMap.get?_set] at hget
    split at hget
    · rename_i hp
      rw [if_pos hp]
      exact ⟨clock s.readings, rfl, (Option.some.inj hget).symm⟩
    · rename_i hp
      rw [if_neg hp]
      exact h.of_entry p e hget
  of_no_entry p time hget hlast := by
    rw [OrderedMap.get?_set] at hget
    split at hget
    · cases hget
    · rename_i hp
      rw [lastProof_append, List.foldl_cons, List.foldl_nil, ProofEvent.proofAfter, if_neg hp]
        at hlast
      obtain ⟨k, hk, hexpired⟩ := h.of_no_entry p time hget hlast
      exact ⟨k, Nat.lt_succ_of_lt hk, hexpired⟩

/-- The sync part of `record_valid_response`: an eviction where the map is full, and the proof. -/
theorem recordProof (h : Records clock trace s) (peer : Peer) :
    Records clock (trace ++ ((s.evicted peer).toList.map .evicted ++
      [.recorded peer (clock s.readings)])) (s.recordProof table clock peer) := by
  cases hevicted : s.evicted peer with
  | none =>
    have hrecord := h.record peer (size_lt_of_evicted_eq_none hevicted)
    rw [Option.toList_none, List.map_nil, List.nil_append]
    simp only [RoutingEligibility.recordProof, hevicted]
    exact hrecord
  | some oldestPeer =>
    obtain ⟨-, -, expiry, -, hget⟩ := mem_keys_of_evicted hevicted
    have hlt : (s.drop table oldestPeer).expires.size < maxEligiblePeers :=
      (OrderedMap.size_erase_lt (OrderedMap.mem_keys.2 ⟨expiry, hget⟩)).trans_le h.size_le
    have hrecord := (h.drop table oldestPeer).record peer (.inr hlt)
    rw [List.append_assoc] at hrecord
    rw [Option.toList_some, List.map_singleton]
    simp only [RoutingEligibility.recordProof, hevicted]
    exact hrecord

theorem cleared (trace : List (ProofEvent Peer)) (s : RoutingEligibility Peer T) :
    Records clock (trace ++ [.cleared]) (s.clear table) where
  size_le := Nat.zero_le _
  of_entry _ _ hget := by cases hget
  of_no_entry p time _ hlast := by
    rw [lastProof_append, List.foldl_cons, List.foldl_nil, ProofEvent.proofAfter] at hlast
    cases hlast

/-- A check reads the clock, unless the peer has no entry. -/
theorem readings_isEligible (table : RoutingTable Peer Key T) (clock : ℕ → ℚ)
    (s : RoutingEligibility Peer T) (peer : Peer) :
    s.readings ≤ (s.isEligible table clock peer).2.readings ∧
      (s.readings < (s.isEligible table clock peer).2.readings ∨ s.expires.get? peer = none) := by
  rcases isEligible_cases table clock s peer with ⟨hnone, heq⟩ | ⟨-, -, -, heq⟩ | ⟨-, -, -, heq⟩
  · rw [heq]
    exact ⟨le_refl _, .inr hnone⟩
  · rw [heq]
    exact ⟨Nat.le_succ _, .inl (Nat.lt_succ_self _)⟩
  · rw [heq]
    exact ⟨Nat.le_succ _, .inl (Nat.lt_succ_self _)⟩

/-- A check leaves the entries of the other peers. -/
theorem get?_isEligible (table : RoutingTable Peer Key T) (clock : ℕ → ℚ)
    (s : RoutingEligibility Peer T) {p : Peer} (hp : p ≠ peer) :
    (s.isEligible table clock peer).2.expires.get? p = s.expires.get? p := by
  rcases isEligible_cases table clock s peer with ⟨-, heq⟩ | ⟨-, -, -, heq⟩ | ⟨-, -, -, heq⟩
  · rw [heq]
  · rw [heq, OrderedMap.get?_erase, if_neg hp]
  · rw [heq]

/-- **Filtering**: each of the peers that has an entry is asked for in turn, at a reading of the
clock of its own, and those are kept whose last proof is then fresh. -/
theorem filterEligible (table : RoutingTable Peer Key T) (h : Records clock trace s)
    (hclock : Monotone clock) {peers : List Peer} (hnodup : peers.Nodup) :
    Records clock trace (s.filterEligible table clock peers).2 ∧
      s.readings ≤ (s.filterEligible table clock peers).2.readings ∧
      ∃ reading : Peer → ℕ,
        (∀ p ∈ peers, s.readings ≤ reading p ∧
          (reading p < (s.filterEligible table clock peers).2.readings ∨
            s.expires.get? p = none)) ∧
        (s.filterEligible table clock peers).1 =
          peers.filter fun p => isFresh trace (clock (reading p)) p := by
  induction peers generalizing s with
  | nil => exact ⟨h, le_refl _, fun _ => s.readings, by simp, rfl⟩
  | cons peer rest ih =>
    obtain ⟨hpeer, hrest⟩ := List.nodup_cons.1 hnodup
    have hhere := h.isEligible_eq table hclock peer
    obtain ⟨hle, hread⟩ := readings_isEligible table clock s peer
    obtain ⟨hrecords, hreadings, reading, hreading, hfound⟩ := ih (h.isEligible table peer) hrest
    -- the peers of the rest keep their readings, since none of them is this one
    have hother : ∀ p ∈ rest, Function.update reading peer s.readings p = reading p :=
      fun p hp => Function.update_of_ne (ne_of_mem_of_not_mem hp hpeer) _ _
    simp only [RoutingEligibility.filterEligible]
    refine ⟨hrecords, hle.trans hreadings, Function.update reading peer s.readings, ?_, ?_⟩
    · intro p hp
      rcases List.mem_cons.1 hp with rfl | hp
      · rw [Function.update_self]
        exact ⟨le_refl _, hread.imp_left fun hlt => hlt.trans_le hreadings⟩
      · obtain ⟨hfrom, hbefore⟩ := hreading p hp
        rw [get?_isEligible table clock s (ne_of_mem_of_not_mem hp hpeer)] at hbefore
        rw [hother p hp]
        exact ⟨hle.trans hfrom, hbefore⟩
    · have hsame : rest.filter (fun p => isFresh trace (clock (reading p)) p) =
          rest.filter fun p =>
            isFresh trace (clock (Function.update reading peer s.readings p)) p :=
        List.filter_congr fun p hp => by rw [hother p hp]
      rw [hfound, hhere, hsame, List.filter_cons, Function.update_self]

end Records

/-- **What a run records.** -/
theorem RoutingRun.records {t : T} {distance : Key → Peer → ℕ}
    (h : RoutingRun table clock t trace s)
    (htable : table.FindsClosest distance) (hclock : Monotone clock) : Records clock trace s := by
  induction h with
  | new => exact records_new t
  | @call trace s h c ih =>
    cases c with
    | recordValidResponse peer => exact (ih.recordProof peer).congr rfl (le_refl _)
    | addPeer peer skipServerModeCheck =>
      rw [RoutingCall.events, List.append_nil]
      have hcheck := ih.isEligible table peer
      simp only [RoutingCall.after, RoutingEligibility.guardedAdd]
      rcases heq : s.isEligible table clock peer with ⟨_ | _, s'⟩
      · rw [heq] at hcheck
        exact hcheck
      · rw [heq] at hcheck
        exact hcheck.congr rfl (le_refl _)
    | findLocalClosestPeers key count =>
      rw [RoutingCall.events, List.append_nil]
      exact (ih.filterEligible table hclock (htable.find_all s.table key count).nodup).1
    | isEligible peer =>
      rw [RoutingCall.events, List.append_nil]
      exact ih.isEligible table peer
    | clear => exact Records.cleared trace s

/-! ## A sample table -/

namespace Sample

/-- A table without a limit. Its peers are their distances from the one key asked for. -/
def finsetTable : RoutingTable ℕ Unit (Finset ℕ) where
  peers t := t
  addPeer peer _ t := (true, insert peer t)
  removePeer peer t := t.erase peer
  findLocalClosestPeers t _ n := t.sort.take n
  size t := t.card

theorem finsetTable_findsClosest : finsetTable.FindsClosest fun _ peer => peer where
  find t _ n := ⟨t.sort, ⟨t.sort_nodup _, t.sort_toFinset _, t.pairwise_sort _⟩, rfl⟩
  size _ := rfl

/-- A clock that advances by one at every reading. -/
def steadyClock (n : ℕ) : ℚ := n

theorem steadyClock_monotone : Monotone steadyClock := Nat.mono_cast

/-- The calls of two valid responses. -/
def twoResponses : List (RoutingCall ℕ Unit) := [.recordValidResponse 5, .recordValidResponse 3]

def afterTwoResponses : RoutingEligibility ℕ (Finset ℕ) :=
  twoResponses.foldl (fun s c => c.after finsetTable steadyClock s) (.new ∅)

/-- The proofs of the two responses. -/
def twoProofs : List (ProofEvent ℕ) :=
  [.recorded 5 (steadyClock 0), .recorded 3 (steadyClock 1)]

theorem afterTwoResponses_run :
    RoutingRun finsetTable steadyClock ∅ twoProofs afterTwoResponses :=
  .call (.call .new (.recordValidResponse 5)) (.recordValidResponse 3)

end Sample

/-- **Referrals contain exactly the closest freshly proven peers.** After every sequence of calls
the map has at most `maxEligiblePeers` entries, and `find_local_closest_peers` returns the first
`count`, in the order of the whole table by distance, of the peers that are fresh: the clock is
before the float sum of the time of their last valid response and the time to live, and the response
was not evicted or cleared since. Every peer has a reading of the clock of its own, which the call
makes, or is fresh at none from the next one on. -/
theorem referrals_closest (table : RoutingTable Peer Key T) (distance : Key → Peer → ℕ)
    (htable : table.FindsClosest distance) (clock : ℕ → ℚ) (hclock : Monotone clock) (t : T)
    (trace : List (ProofEvent Peer)) (s : RoutingEligibility Peer T)
    (h : RoutingRun table clock t trace s) :
    s.expires.size ≤ maxEligiblePeers ∧
    ∀ key count, ∃ (order : List Peer) (reading : Peer → ℕ),
      ClosestFirst table distance s.table key order ∧
      (∀ peer ∈ order,
        (s.readings ≤ reading peer ∧
          reading peer < (s.guardedFind table clock key count).2.readings) ∨
        ∀ k, s.readings ≤ k → isFresh trace (clock k) peer = false) ∧
      (s.guardedFind table clock key count).1 =
        (order.filter fun peer => isFresh trace (clock (reading peer)) peer).take count := by
  have hrecords := h.records htable hclock
  refine ⟨hrecords.size_le, ?_⟩
  intro key count
  have horder := htable.find_all s.table key count
  obtain ⟨-, -, reading, hreading, hfound⟩ :=
    hrecords.filterEligible table hclock horder.nodup
  refine ⟨_, reading, horder, ?_, congrArg (List.take count) hfound⟩
  intro peer hpeer
  obtain ⟨hfrom, hlt | hnone⟩ := hreading peer hpeer
  · exact .inl ⟨hfrom, hlt⟩
  · exact .inr fun k => hrecords.not_isFresh hclock hnone

namespace Sample

theorem sort_twoPeers : ({3, 5} : Finset ℕ).sort = [3, 5] := by
  rw [Finset.sort_insert _ (by simp) (by simp), Finset.sort_singleton]

theorem afterTwoResponses_order {order : List ℕ}
    (h : ClosestFirst finsetTable (fun _ peer => peer) afterTwoResponses.table () order) :
    order = [3, 5] := by
  have htable : order.toFinset = [3, 5].toFinset := h.toFinset.trans (by decide)
  have hperm : order.Perm [3, 5] :=
    List.perm_of_nodup_nodup_toFinset_eq h.nodup (by decide) htable
  exact hperm.eq_of_pairwise' h.sorted (by decide)

/-- The find reads the clock for either peer. -/
theorem afterTwoResponses_readings :
    (afterTwoResponses.guardedFind finsetTable steadyClock () 1).2.readings = 4 := by
  have hfind : finsetTable.findLocalClosestPeers afterTwoResponses.table ()
      (max 1 (finsetTable.size afterTwoResponses.table)) = [3, 5] := by
    change (Finset.sort {3, 5}).take 2 = [3, 5]
    rw [sort_twoPeers]
    rfl
  simp only [guardedFind, hfind]
  decide +kernel

/-- Both peers are fresh at the readings up to the find's last. -/
theorem twoProofs_fresh {k peer : ℕ} (hk : k < 4) (hpeer : peer ∈ [3, 5]) :
    isFresh twoProofs (steadyClock k) peer = true := by
  have hall : ∀ k < 4, ∀ peer ∈ [3, 5], isFresh twoProofs (steadyClock k) peer = true := by
    decide +kernel
  exact hall k hk peer hpeer

end Sample

/-- After two valid responses, the closer of the two is referred. -/
theorem twoResponses_referred :
    (Sample.afterTwoResponses.guardedFind Sample.finsetTable Sample.steadyClock () 1).1 = [3] := by
  have hreferrals := referrals_closest Sample.finsetTable (fun _ peer => peer)
    Sample.finsetTable_findsClosest Sample.steadyClock Sample.steadyClock_monotone ∅
    Sample.twoProofs Sample.afterTwoResponses Sample.afterTwoResponses_run
  obtain ⟨order, reading, horder, hreading, hfound⟩ := hreferrals.2 () 1
  obtain rfl := Sample.afterTwoResponses_order horder
  have hfresh : ∀ peer ∈ [3, 5],
      isFresh Sample.twoProofs (Sample.steadyClock (reading peer)) peer = true := by
    intro peer hpeer
    rcases hreading peer hpeer with ⟨-, hlt⟩ | hstale
    · rw [Sample.afterTwoResponses_readings] at hlt
      exact Sample.twoProofs_fresh hlt hpeer
    · have hnow := Sample.twoProofs_fresh (k := 2) (by decide) hpeer
      cases hnow.symm.trans (hstale 2 (le_refl _))
  rw [hfound, List.filter_eq_self.2 hfresh]
  rfl

namespace Sample

/-- A clock that is read twice: a little after 256, and at 556. -/
def coarseClock (n : ℕ) : ℚ := if n = 0 then 256 + 2 ^ (-44 : ℤ) else 556

theorem coarseClock_monotone : Monotone coarseClock := by
  refine monotone_nat_of_le_succ fun n => ?_
  by_cases hn : n = 0
  · subst hn
    decide +kernel
  · simp [coarseClock, hn]

def afterCoarseResponse : RoutingEligibility ℕ (Finset ℕ) :=
  (RoutingEligibility.new ∅).recordValidResponse finsetTable coarseClock 5

end Sample

/-- **A proof that expires early.** A valid response is recorded at a reading of `256 + 2⁻⁴⁴`, and
the table is asked for its closest peer at a reading of 556. Both are floats, and the response is
less than 300 seconds old; but the float sum of its time and 300 is 556, and nobody is referred. -/
theorem roundedProof_dropped :
    Monotone Sample.coarseClock ∧
    (∀ n, Binary64.nearest (Sample.coarseClock n) = Sample.coarseClock n) ∧
    RoutingRun Sample.finsetTable Sample.coarseClock ∅ [.recorded 5 (Sample.coarseClock 0)]
      Sample.afterCoarseResponse ∧
    ClosestFirst Sample.finsetTable (fun _ peer => peer) Sample.afterCoarseResponse.table () [5] ∧
    Sample.coarseClock Sample.afterCoarseResponse.readings - Sample.coarseClock 0 <
      servingProofTtlSeconds ∧
    (Sample.afterCoarseResponse.guardedFind Sample.finsetTable Sample.coarseClock () 1).1 = [] := by
  refine ⟨Sample.coarseClock_monotone, fun n => ?_, .call .new (.recordValidResponse 5),
    ⟨by decide, by decide, by decide⟩, by decide +kernel, ?_⟩
  · by_cases hn : n = 0
    · subst hn
      decide +kernel
    · simp only [Sample.coarseClock, if_neg hn]
      decide +kernel
  · have hfind : Sample.finsetTable.findLocalClosestPeers Sample.afterCoarseResponse.table ()
        (max 1 (Sample.finsetTable.size Sample.afterCoarseResponse.table)) = [5] := by
      change (Finset.sort {5}).take 1 = [5]
      rw [Finset.sort_singleton]
      rfl
    simp only [guardedFind, hfind]
    decide +kernel

end DecentRegistry
