import DecentRegistry.Authority.Chain
import DecentRegistry.Foundations.HashChain

/-!
# What a state hash commits to

The SignedUpdates of an accepted history form a hash chain: each names the hash of the one before it
in its own authorization map, and a genesis or a legacy SignedUpdate, which can stand first only,
names none. So the last SignedUpdate determines all of them
(`validateMultisignatureHistory_commits`). -/

namespace DecentRegistry

open Fallible PyValue Replay HashChain

variable {rt : Runtime}

/-- The state hash a SignedUpdate names as its predecessor's. -/
def namedPredecessor (rt : Runtime) (signedUpdateBytes : Bytes) : Option Bytes :=
  match decodeMultisignatureSignedUpdate rt signedUpdateBytes with
  | .error _ => none
  | .ok signedUpdate =>
    if signedUpdate.authorization.operation = .genesis then none
    else some signedUpdate.authorization.predecessorStateHash

theorem namedPredecessor_candidate {p : Candidate} {e : Bytes} (h : p.Reads rt e) :
    namedPredecessor rt p.signedUpdateBytes =
      if p.authorization.operation = .genesis then none
      else some p.authorization.predecessorStateHash := by
  simp [namedPredecessor, h.update, Candidate.update]

/-- A legacy SignedUpdate has no authorization map to name a predecessor in. -/
theorem namedPredecessor_legacy {legacy : LegacyState} {recordKey e : Bytes}
    (h : legacy.Reads rt recordKey e) : namedPredecessor rt legacy.signedUpdateBytes = none := by
  simp [namedPredecessor, decodeMultisignatureSignedUpdate, h.update, orRaise]

/-- A successor names the hash of its predecessor's SignedUpdate. -/
theorem Succeeds.namedPredecessor {recordKey previous e : Bytes}
    (h : Succeeds rt recordKey previous e) :
    ∃ u v, signedUpdateOf rt previous = .ok u ∧ signedUpdateOf rt e = .ok v ∧
      namedPredecessor rt v = some (rt.sha256 u) := by
  obtain ⟨p, u, hp, -, hu, hpredecessor, authorized⟩ := h
  have hreads := decodeMultisignatureCandidate_eq_ok.1 hp
  have hoperation : p.authorization.operation ≠ .genesis := by
    intro hgenesis
    simp [AuthorizedBy, hgenesis] at authorized
  refine ⟨u, p.signedUpdateBytes, hu, signedUpdateOf_candidate hreads, ?_⟩
  rw [namedPredecessor_candidate hreads, if_neg hoperation, hpredecessor]

/-- An anchor names no predecessor. -/
theorem IsAnchor.namedPredecessor {recordKey first : Bytes} {r : ReplayState}
    (h : IsAnchor rt recordKey first r) :
    ∃ u, signedUpdateOf rt first = .ok u ∧ namedPredecessor rt u = none := by
  cases h with
  | legacy reads => exact ⟨_, signedUpdateOf_legacy reads, namedPredecessor_legacy reads⟩
  | genesis reads h =>
    refine ⟨_, signedUpdateOf_candidate reads, ?_⟩
    rw [namedPredecessor_candidate reads, if_pos h.operation]

/-- The SignedUpdates of a replayed list form a hash chain. -/
theorem replays_isHashChain {recordKey : Bytes} {l : List Bytes} {r : ReplayState}
    (run : Replays (IsAnchor rt recordKey) (replayStep rt recordKey) l r) :
    (∃ e, l.getLast? = some e ∧ StandsAt rt recordKey r e) ∧
      ∃ us : List Bytes, l.map (signedUpdateOf rt) = us.map .ok ∧
        IsHashChain rt.sha256 (namedPredecessor rt) us := by
  induction run with
  | @anchor first r h =>
    obtain ⟨u, hu, hnone⟩ := h.namedPredecessor
    exact ⟨⟨first, rfl, h.standsAt⟩, [u], by simp [hu], IsHashChain.nil.snoc hnone⟩
  | @step l e r t run h ih =>
    obtain ⟨⟨previous, hlast, hr⟩, us, hus, chain⟩ := ih
    obtain ⟨succeeds, ht⟩ := replayStep_succeeds hr h
    obtain ⟨u, v, hu, hv, hnames⟩ := succeeds.namedPredecessor
    refine ⟨⟨e, by simp, ht⟩, us ++ [v], by simp [hus, hv], chain.snoc ?_⟩
    have hend : us.getLast? = some u := by
      have hmaps := congrArg List.getLast? hus
      simpa [List.getLast?_map, hlast, hu, eq_comm] using hmaps
    rw [hnames, hend]
    rfl

/-- **A state hash commits to the whole lineage.** Two accepted histories whose last envelopes carry
the same SignedUpdate carry the same SignedUpdates throughout. -/
theorem validateMultisignatureHistory_commits (rt : Runtime) (recordKey : Bytes)
    (envelopes envelopes' : List Bytes) (s s' : MultisignatureState) (last last' : Bytes)
    (h : validateMultisignatureHistory rt recordKey envelopes = .ok s)
    (h' : validateMultisignatureHistory rt recordKey envelopes' = .ok s')
    (hlast : envelopes.getLast? = some last) (hlast' : envelopes'.getLast? = some last')
    (same : signedUpdateOf rt last = signedUpdateOf rt last')
    (injective : ∀ e ∈ envelopes, ∀ e' ∈ envelopes', ∀ u u', signedUpdateOf rt e = .ok u →
      signedUpdateOf rt e' = .ok u' → rt.sha256 u = rt.sha256 u' → u = u') :
    envelopes.length = envelopes'.length ∧
      ∃ signedUpdates : List Bytes, envelopes.map (signedUpdateOf rt) = signedUpdates.map .ok ∧
        envelopes'.map (signedUpdateOf rt) = signedUpdates.map .ok := by
  obtain ⟨-, us, hus, chain⟩ :=
    replays_isHashChain (validateMultisignatureHistory_eq_ok.1 h).1
  obtain ⟨-, us', hus', chain'⟩ :=
    replays_isHashChain (validateMultisignatureHistory_eq_ok.1 h').1
  -- the entries of the chains are the SignedUpdates of the envelopes
  have hmem (l us : List Bytes) (hl : l.map (signedUpdateOf rt) = us.map .ok) (u : Bytes)
      (hu : u ∈ us) : ∃ e ∈ l, signedUpdateOf rt e = .ok u := by
    have : Except.ok u ∈ l.map (signedUpdateOf rt) := hl ▸ List.mem_map_of_mem hu
    simpa using this
  have hends : us.getLast? = us'.getLast? := by
    have hmaps := congrArg List.getLast? hus
    have hmaps' := congrArg List.getLast? hus'
    rw [List.getLast?_map, hlast, List.getLast?_map] at hmaps
    rw [List.getLast?_map, hlast', List.getLast?_map] at hmaps'
    refine Option.map_injective (fun _ _ => Except.ok.inj) (hmaps.symm.trans (.trans ?_ hmaps'))
    exact congrArg some same
  obtain rfl : us = us' := by
    refine chain.eq_of_getLast? chain' hends fun u hu u' hu' heq => ?_
    obtain ⟨e, he, hsigned⟩ := hmem _ _ hus u hu
    obtain ⟨e', he', hsigned'⟩ := hmem _ _ hus' u' hu'
    exact injective e he e' he' u u' hsigned hsigned' heq
  refine ⟨?_, us, hus, hus'⟩
  have hlength := congrArg List.length (hus.trans hus'.symm)
  simpa using hlength

/-- Two histories of one Identity that differ in the quorum of the replacement. -/
theorem sampleHistories_commit :
    ∃ signedUpdates : List Bytes,
      [Sample.legacyIdentity, Sample.upgrade, Sample.replacement].map
          (signedUpdateOf Sample.runtime) = signedUpdates.map .ok ∧
        [Sample.legacyIdentity, Sample.upgrade, Sample.otherReplacement].map
          (signedUpdateOf Sample.runtime) = signedUpdates.map .ok := by
  -- one check: the histories have most of what it evaluates in common
  obtain ⟨hok, hok', same, injective⟩ :
      (validateMultisignatureHistory Sample.runtime Sample.identityKey
        [Sample.legacyIdentity, Sample.upgrade, Sample.replacement]).isOk = true ∧
      (validateMultisignatureHistory Sample.runtime Sample.identityKey
        [Sample.legacyIdentity, Sample.upgrade, Sample.otherReplacement]).isOk = true ∧
      signedUpdateOf Sample.runtime Sample.replacement =
        signedUpdateOf Sample.runtime Sample.otherReplacement ∧
      ∀ e ∈ [Sample.legacyIdentity, Sample.upgrade, Sample.replacement],
        ∀ e' ∈ [Sample.legacyIdentity, Sample.upgrade, Sample.otherReplacement],
          (signedUpdateOf Sample.runtime e).map Sample.runtime.sha256 =
              (signedUpdateOf Sample.runtime e').map Sample.runtime.sha256 →
            signedUpdateOf Sample.runtime e = signedUpdateOf Sample.runtime e' := by
    decide +kernel
  refine (validateMultisignatureHistory_commits _ _ _ _ _ _ _ _ (eq_ok_valueOf hok)
    (eq_ok_valueOf hok') rfl rfl same fun e he e' he' u u' hu hu' hdigest => ?_).2
  have heq := injective e he e' he' (by simp [hu, hu', Except.map, hdigest])
  exact Except.ok.inj (hu.symm.trans (heq.trans hu'))

end DecentRegistry
