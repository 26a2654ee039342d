import DecentRegistry.Foundations.Binary64
import DecentRegistry.Foundations.OrderedMap
import Mathlib.Algebra.Order.Ring.Rat
import Mathlib.Data.Finset.Basic
import Mathlib.Data.List.MinMax

/-!
# Routing eligibility

The `RoutingEligibility` of `dht/serving_eligibility.py`: a wrapper of a routing table that admits
and refers only the peers whose serving proof is fresh. The table is that of another package,
`RoutingTable`; a method that waits for the table's `add_peer` is given up to the wait
(`recordProof`, `isEligible`) and as a whole. The clock is a sequence of readings, floats that are
read as rational numbers; what is added to a reading is added as floats are (`Binary64.add`).
-/

namespace DecentRegistry

/-- `MAX_ELIGIBLE_PEERS`. -/
def maxEligiblePeers : ℕ := 1024

/-- `SERVING_PROOF_TTL_SECONDS`. -/
def servingProofTtlSeconds : ℚ := 5 * 60

/-- The methods of the wrapped routing table, over its states `T`, and the peers it has. -/
structure RoutingTable (Peer Key T : Type) where
  peers : T → Finset Peer
  /-- `add_peer(peer, skip_server_mode_check=_)`. -/
  addPeer : Peer → Bool → T → Bool × T
  /-- `remove_peer`. -/
  removePeer : Peer → T → T
  /-- `find_local_closest_peers`. -/
  findLocalClosestPeers : T → Key → ℕ → List Peer
  /-- `size`. -/
  size : T → ℕ

/-- The state of a `RoutingEligibility` and of its table, and the number of clock readings so
far. -/
structure RoutingEligibility (Peer T : Type) where
  expires : OrderedMap Peer ℚ
  table : T
  readings : ℕ

namespace RoutingEligibility

variable {Peer Key T : Type} [DecidableEq Peer] (table : RoutingTable Peer Key T) (clock : ℕ → ℚ)

/-- `__init__`, on a table from which the peers have been removed. -/
def new (t : T) : RoutingEligibility Peer T := { expires := .empty, table := t, readings := 0 }

/-- `_expires.pop(peer, None)` and `_remove(peer)`. -/
def drop (s : RoutingEligibility Peer T) (peer : Peer) : RoutingEligibility Peer T :=
  { s with expires := s.expires.erase peer, table := table.removePeer peer s.table }

/-- `is_eligible`. -/
def isEligible (s : RoutingEligibility Peer T) (peer : Peer) :
    Bool × RoutingEligibility Peer T :=
  match s.expires.get? peer with
  | none => (false, s)
  | some expiry =>
    let now := clock s.readings
    let s := { s with readings := s.readings + 1 }
    if expiry ≤ now then (false, s.drop table peer) else (true, s)

/-- The peer that `record_valid_response` evicts: the first with the oldest expiry. -/
def evicted (s : RoutingEligibility Peer T) (peer : Peer) : Option Peer :=
  if peer ∉ s.expires.keys ∧ maxEligiblePeers ≤ s.expires.size then
    (s.expires.entries.argmin Prod.snd).map Prod.fst
  else none

/-- `record_valid_response`, up to the wait for the table. -/
def recordProof (s : RoutingEligibility Peer T) (peer : Peer) : RoutingEligibility Peer T :=
  let s := match s.evicted peer with
    | none => s
    | some oldestPeer => s.drop table oldestPeer
  { s with
    expires := s.expires.set peer (Binary64.add (clock s.readings) servingProofTtlSeconds)
    readings := s.readings + 1 }

/-- `_add`: the table adds a peer, or refuses it. -/
def addToTable (s : RoutingEligibility Peer T) (peer : Peer) (skipServerModeCheck : Bool) :
    Bool × RoutingEligibility Peer T :=
  let (added, t) := table.addPeer peer skipServerModeCheck s.table
  (added, { s with table := t })

/-- `record_valid_response`. -/
def recordValidResponse (s : RoutingEligibility Peer T) (peer : Peer) : RoutingEligibility Peer T :=
  ((s.recordProof table clock peer).addToTable table peer false).2

/-- `clear`. -/
def clear (s : RoutingEligibility Peer T) : RoutingEligibility Peer T :=
  { s with
    expires := .empty
    table := s.expires.keys.foldl (fun t peer => table.removePeer peer t) s.table }

/-- `_guarded_add`, of a peer or of the information on it. -/
def guardedAdd (s : RoutingEligibility Peer T) (peer : Peer) (skipServerModeCheck : Bool) :
    Bool × RoutingEligibility Peer T :=
  match s.isEligible table clock peer with
  | (false, s) => (false, s)
  | (true, s) => s.addToTable table peer skipServerModeCheck

/-- The loop of `_guarded_find`: the eligible among some peers. -/
def filterEligible (s : RoutingEligibility Peer T) :
    List Peer → List Peer × RoutingEligibility Peer T
  | [] => ([], s)
  | peer :: rest =>
    let (eligible, s) := s.isEligible table clock peer
    let (found, s) := filterEligible s rest
    (if eligible then peer :: found else found, s)

/-- `_guarded_find`. -/
def guardedFind (s : RoutingEligibility Peer T) (key : Key) (count : ℕ) :
    List Peer × RoutingEligibility Peer T :=
  let allPeers :=
    table.findLocalClosestPeers s.table key (max count (table.size s.table))
  let (eligible, s) := s.filterEligible table clock allPeers
  (eligible.take count, s)

end RoutingEligibility

/-! ## What a check does -/

namespace RoutingEligibility

variable {Peer Key T : Type} [DecidableEq Peer] {table : RoutingTable Peer Key T} {clock : ℕ → ℚ}
  {s : RoutingEligibility Peer T} {peer : Peer}

/-- **The three outcomes of a check**: no entry, an expired one, which is dropped, or a fresh
one. -/
theorem isEligible_cases (table : RoutingTable Peer Key T) (clock : ℕ → ℚ)
    (s : RoutingEligibility Peer T) (peer : Peer) :
    (s.expires.get? peer = none ∧ s.isEligible table clock peer = (false, s)) ∨
    (∃ expiry, s.expires.get? peer = some expiry ∧ expiry ≤ clock s.readings ∧
      s.isEligible table clock peer =
        (false, { s with
          expires := s.expires.erase peer
          table := table.removePeer peer s.table
          readings := s.readings + 1 })) ∨
    ∃ expiry, s.expires.get? peer = some expiry ∧ clock s.readings < expiry ∧
      s.isEligible table clock peer = (true, { s with readings := s.readings + 1 }) := by
  cases hexpiry : s.expires.get? peer with
  | none => exact .inl ⟨rfl, by simp only [isEligible, hexpiry]⟩
  | some expiry =>
    right
    by_cases h : expiry ≤ clock s.readings
    · exact .inl ⟨expiry, rfl, h, by simp only [isEligible, hexpiry, if_pos h, drop]⟩
    · exact .inr ⟨expiry, rfl, not_le.1 h, by simp only [isEligible, hexpiry, if_neg h]⟩

/-- Who is evicted has an entry, and is not the peer that comes. -/
theorem mem_keys_of_evicted {oldestPeer : Peer} (h : s.evicted peer = some oldestPeer) :
    peer ∉ s.expires.keys ∧ maxEligiblePeers ≤ s.expires.size ∧
      ∃ expiry, (oldestPeer, expiry) ∈ s.expires.entries.argmin Prod.snd ∧
        s.expires.get? oldestPeer = some expiry := by
  rw [evicted] at h
  split at h
  · rename_i hfull
    obtain ⟨⟨p, expiry⟩, hmin, rfl⟩ := Option.map_eq_some_iff.1 h
    refine ⟨hfull.1, hfull.2, expiry, hmin, ?_⟩
    exact OrderedMap.get?_eq_some.2 (List.argmin_mem hmin)
  · cases h

/-- A full map has somebody to evict. -/
theorem size_lt_of_evicted_eq_none (h : s.evicted peer = none) :
    peer ∈ s.expires.keys ∨ s.expires.size < maxEligiblePeers := by
  rw [evicted] at h
  split at h
  · rename_i hfull
    rw [Option.map_eq_none_iff, List.argmin_eq_none] at h
    have hsize : s.expires.size = 0 := by simp [OrderedMap.size, h]
    rw [hsize] at hfull
    exact absurd hfull.2 (by decide)
  · rename_i hnot
    by_cases hmem : peer ∈ s.expires.keys
    · exact .inl hmem
    · right
      by_contra hfull
      exact hnot ⟨hmem, not_lt.1 hfull⟩

end RoutingEligibility

end DecentRegistry
