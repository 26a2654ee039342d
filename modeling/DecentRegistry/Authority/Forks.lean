import DecentRegistry.Authority.Commitment
import DecentRegistry.Authority.Runs
import DecentRegistry.Foundations.Forks

/-!
# Forks of an Identity

The signers in a SignedUpdate, or the owner of a legacy one, are the authority over what follows it
(`authorityOf`), and the SignedUpdates of an accepted history are a certified chain of such
authorities (`replays_certified`). Two of any three signers have one in common with two others, so
two accepted histories from one anchor can part ways only where a key of the authority at the fork
signed an envelope of either, and the two carry different SignedUpdates that name the same
predecessor (`acceptedHistories_fork_accountable`). -/

namespace DecentRegistry

open Fallible PyValue Quorum Replay Forks

variable {rt : Runtime} {recordKey : Bytes}

/-- The authority over what follows a SignedUpdate. -/
def authorityOf (rt : Runtime) (signedUpdateBytes : Bytes) : Authority Bytes :=
  match decodeCanonicalSignedUpdate rt signedUpdateBytes with
  | .error _ => ⟨[], 1⟩
  | .ok signedUpdate =>
    match signedUpdate.authorization with
    | some authorization => ⟨authorization.signerSet.map (·.publicKey), authorization.threshold⟩
    | none =>
      match extractLegacyKeys rt signedUpdate.recordFields signedUpdate.payload with
      | .error _ => ⟨[], 1⟩
      | .ok (_, _, ownerPublicKey) => ⟨[ownerPublicKey], 1⟩

/-- Envelopes: each carries a SignedUpdate that is under the authority of the one whose hash it
names, and signatures. -/
def succession (rt : Runtime) : Certification Bytes (Py Bytes) Bytes where
  state := signedUpdateOf rt
  authority
    | .ok u => authorityOf rt u
    | .error _ => ⟨[], 1⟩
  carries e k := ∃ envelope, decodeMultisignatureEnvelope rt e = .ok envelope ∧
    CarriesSignatureBy rt envelope k
  follows x y := ∃ u v, x = .ok u ∧ y = .ok v ∧ namedPredecessor rt v = some (rt.sha256 u)

/-! ## Authorities -/

theorem authorityOf_candidate {p : Candidate} {e : Bytes} (h : p.Reads rt e) :
    authorityOf rt p.signedUpdateBytes =
      ⟨p.authorization.signerSet.map (·.publicKey), p.authorization.threshold⟩ := by
  simp [authorityOf, decodeMultisignatureSignedUpdate_eq_ok.1 h.update, Candidate.update]

theorem authorityOf_legacy {legacy : LegacyState} {e : Bytes} (h : legacy.Reads rt recordKey e) :
    authorityOf rt legacy.signedUpdateBytes = ⟨[legacy.ownerPublicKey], 1⟩ := by
  simp [authorityOf, h.update, h.keys]

theorem intersecting_of_legacy {legacy : LegacyState} {e : Bytes}
    (h : legacy.Reads rt recordKey e) :
    (authorityOf rt legacy.signedUpdateBytes).Intersecting := by
  simp [authorityOf_legacy h, Authority.Intersecting]

/-- Two quorums of a 2-of-3 state intersect. -/
theorem intersecting_of_complete {p : Candidate} {e : Bytes} {history : Option (List Bytes)}
    {s : MultisignatureState} (hp : p.Reads rt e)
    (hs : candidateState rt recordKey p history = .ok s) (h : s.Complete) :
    (authorityOf rt p.signedUpdateBytes).Intersecting := by
  obtain ⟨-, hthreshold, hset⟩ := candidateState_stateHash hs
  have hsize := h.size
  rw [hset] at hsize
  simp [authorityOf_candidate hp, Authority.Intersecting, hsize, ← hthreshold, h.threshold]

/-! ## Successors -/

/-- A quorum of the predecessor's signers is one of its authority. -/
theorem QuorumOfPredecessor.quorum {previous u : Bytes} {p : Candidate}
    (hu : signedUpdateOf rt previous = .ok u) (h : QuorumOfPredecessor rt previous p) :
    IsQuorum (authorityOf rt u).members (CarriesSignatureBy rt p.envelope)
      (authorityOf rt u).threshold := by
  obtain ⟨q, hq, hquorum⟩ := h
  have hreads := decodeMultisignatureCandidate_eq_ok.1 hq
  obtain rfl : q.signedUpdateBytes = u :=
    Except.ok.inj ((signedUpdateOf_candidate hreads).symm.trans hu)
  rw [authorityOf_candidate hreads]
  exact hquorum

/-- The owner of a legacy predecessor is all of its authority. -/
theorem OwnerOfPredecessor.quorum {previous u : Bytes} {p : Candidate}
    (hu : signedUpdateOf rt previous = .ok u) (h : OwnerOfPredecessor rt recordKey previous p) :
    IsQuorum (authorityOf rt u).members (CarriesSignatureBy rt p.envelope)
      (authorityOf rt u).threshold := by
  obtain ⟨legacy, proof, hlegacy, hproof, hvalid⟩ := h
  have hreads := decodeLegacyState_eq_ok.1 hlegacy
  obtain rfl : legacy.signedUpdateBytes = u :=
    Except.ok.inj ((signedUpdateOf_legacy hreads).symm.trans hu)
  rw [authorityOf_legacy hreads]
  refine ⟨[legacy.ownerPublicKey], List.nodup_singleton _, Nat.le_refl _, fun k hk => ⟨hk, ?_⟩⟩
  obtain rfl := List.mem_singleton.1 hk
  exact ⟨proof, by simp [hproof], hvalid⟩

/-- **A successor is certified** by the authority of its predecessor. -/
theorem Succeeds.certifies {previous e : Bytes} (h : Succeeds rt recordKey previous e) :
    (succession rt).Certifies previous e := by
  obtain ⟨u, v, hu, hv, hnames⟩ := h.namedPredecessor
  obtain ⟨p, -, hp, -, -, -, authorized⟩ := h
  refine ⟨⟨u, v, hu, hv, hnames⟩, ?_⟩
  have hauthority : (succession rt).authority ((succession rt).state previous) =
      authorityOf rt u := by
    simp [succession, hu]
  have hquorum : IsQuorum (authorityOf rt u).members (CarriesSignatureBy rt p.envelope)
      (authorityOf rt u).threshold := by
    cases hop : p.authorization.operation <;> simp only [AuthorizedBy, hop] at authorized
    · exact authorized.quorum hu
    · exact authorized.quorum hu
    · exact authorized.quorum hu
    · rcases authorized with h | h
      · exact h.quorum hu
      · exact h.quorum hu
  rw [hauthority]
  exact hquorum.mono fun k hk => ⟨_, (decodeMultisignatureCandidate_eq_ok.1 hp).envelope, hk⟩

/-! ## Accepted histories -/

/-- A multisignature state a replay stands at is complete. -/
def StandsComplete (rt : Runtime) : ReplayState → Prop
  | .legacyAnchor _ => True
  | .state s => s.Sound rt

theorem IsAnchor.standsComplete {first : Bytes} {r : ReplayState}
    (h : IsAnchor rt recordKey first r) : StandsComplete rt r := by
  cases h with
  | legacy => trivial
  | genesis reads h _ state => exact (IsStep.genesis h).sound_start reads state

theorem replayStep_standsComplete {e : Bytes} {r t : ReplayState} (hr : StandsComplete rt r)
    (h : replayStep rt recordKey r e = .ok t) : StandsComplete rt t := by
  obtain ⟨p, history, s, hp, hstep, hs, rfl⟩ := replayStep_eq_ok.1 h
  cases r with
  | legacyAnchor anchor => exact hstep.sound_start hp hs
  | state current => exact hstep.sound_step hr hp hs

/-- What a replay stands at has an authority whose quorums intersect. -/
theorem StandsAt.intersecting {r : ReplayState} {e : Bytes} (h : StandsAt rt recordKey r e)
    (hr : StandsComplete rt r) :
    ((succession rt).authority ((succession rt).state e)).Intersecting := by
  cases r with
  | legacyAnchor anchor =>
    obtain ⟨rfl, legacy, hreads⟩ := h
    simpa [succession, signedUpdateOf_legacy hreads] using intersecting_of_legacy hreads
  | state s =>
    obtain ⟨p, history, hp, hs⟩ := h
    simpa [succession, signedUpdateOf_candidate hp] using
      intersecting_of_complete hp hs hr.toComplete

/-- A replayed list is a certified chain. -/
theorem foldlM_certified {l : List Bytes} {r t : ReplayState} {e : Bytes}
    (hr : StandsAt rt recordKey r e) (hcomplete : StandsComplete rt r)
    (h : l.foldlM (replayStep rt recordKey) r = .ok t) :
    List.IsChain (succession rt).Certifies (e :: l) ∧
      ∀ x ∈ e :: l, ((succession rt).authority ((succession rt).state x)).Intersecting := by
  induction l generalizing r e with
  | nil => exact ⟨.singleton e, by simpa using hr.intersecting hcomplete⟩
  | cons a l ih =>
    obtain ⟨s, hs, hl⟩ := foldlM_cons_eq_ok.1 h
    obtain ⟨succeeds, standsAt⟩ := replayStep_succeeds hr hs
    obtain ⟨chain, hrest⟩ := ih standsAt (replayStep_standsComplete hcomplete hs) hl
    exact ⟨.cons_cons succeeds.certifies chain,
      List.forall_mem_cons.2 ⟨hr.intersecting hcomplete, hrest⟩⟩

/-- An accepted history is a certified chain. -/
theorem certified_of_history {l : List Bytes} {s : MultisignatureState}
    (h : validateMultisignatureHistory rt recordKey l = .ok s) :
    ∃ x rest, l = x :: rest ∧ List.IsChain (succession rt).Certifies (x :: rest) ∧
      ∀ y ∈ x :: rest, ((succession rt).authority ((succession rt).state y)).Intersecting := by
  obtain ⟨first, rest, r, rfl, hanchor, hreplay⟩ :=
    replays_iff.1 (validateMultisignatureHistory_eq_ok.1 h).1
  exact ⟨first, rest, rfl, foldlM_certified hanchor.standsAt hanchor.standsComplete hreplay⟩

/-- Evidence of a fork: both lists carry a SignedUpdate over which a key of its authority signed two
successors. An envelope of either list carries a valid signature by the key, and their SignedUpdates
differ and name the one in both as their predecessor. -/
def ForkEvidence (rt : Runtime) (l l' : List Bytes) : Prop :=
  ∃ u k, Except.ok u ∈ l.map (signedUpdateOf rt) ∧ Except.ok u ∈ l'.map (signedUpdateOf rt) ∧
    (succession rt).Equivocates l l' (.ok u) k

theorem ForkEvidence.mono {l l' m m' : List Bytes} (h : ForkEvidence rt l l') (hl : l ⊆ m)
    (hl' : l' ⊆ m') : ForkEvidence rt m m' := by
  obtain ⟨u, k, hu, hu', hk⟩ := h
  exact ⟨u, k, List.map_subset _ hl hu, List.map_subset _ hl' hu', hk.mono hl hl'⟩

/-- Two accepted histories that begin with the same SignedUpdate. -/
theorem comparable_or_forkEvidence {l l' : List Bytes} {s s' : MultisignatureState}
    (h : validateMultisignatureHistory rt recordKey l = .ok s)
    (h' : validateMultisignatureHistory rt recordKey l' = .ok s')
    (same : l.head?.map (signedUpdateOf rt) = l'.head?.map (signedUpdateOf rt)) :
    l.map (signedUpdateOf rt) <+: l'.map (signedUpdateOf rt) ∨
      l'.map (signedUpdateOf rt) <+: l.map (signedUpdateOf rt) ∨ ForkEvidence rt l l' := by
  obtain ⟨x, rest, rfl, chain, hintersecting⟩ := certified_of_history h
  obtain ⟨x', rest', rfl, chain', -⟩ := certified_of_history h'
  rcases Certification.comparable_or_equivocates chain chain' (Option.some.inj same)
    hintersecting with hbegins | hbegins | ⟨_, hu, hu', k, hk⟩
  · exact .inl hbegins
  · exact .inr (.inl hbegins)
  · obtain ⟨-, -, -, -, -, ⟨u, -, rfl, -⟩, -⟩ := hk.signed
    exact .inr (.inr ⟨u, k, hu, hu', hk⟩)

/-- **Accountability for forks.** Of two accepted histories that begin with the same SignedUpdate,
one carries a beginning of the SignedUpdates of the other, or the envelopes of the two are evidence
against a signer who signed two successors of a SignedUpdate in both. -/
theorem acceptedHistories_fork_accountable (rt : Runtime) (recordKey : Bytes) (l l' : List Bytes)
    (s s' : MultisignatureState) (h : validateMultisignatureHistory rt recordKey l = .ok s)
    (h' : validateMultisignatureHistory rt recordKey l' = .ok s')
    (same : l.head?.map (signedUpdateOf rt) = l'.head?.map (signedUpdateOf rt)) :
    l.map (signedUpdateOf rt) <+: l'.map (signedUpdateOf rt) ∨
      l'.map (signedUpdateOf rt) <+: l.map (signedUpdateOf rt) ∨ ForkEvidence rt l l' :=
  comparable_or_forkEvidence h h' same

/-- Two replacements of the signers of one Identity: a signer signed both. -/
theorem sampleFork_accountable : ForkEvidence Sample.runtime
    [Sample.legacyIdentity, Sample.upgrade, Sample.replacement]
    [Sample.legacyIdentity, Sample.upgrade, Sample.partialReplacement] := by
  obtain ⟨hok, hok', hne, hne'⟩ :
      (validateMultisignatureHistory Sample.runtime Sample.identityKey
        [Sample.legacyIdentity, Sample.upgrade, Sample.replacement]).isOk = true ∧
      (validateMultisignatureHistory Sample.runtime Sample.identityKey
        [Sample.legacyIdentity, Sample.upgrade, Sample.partialReplacement]).isOk = true ∧
      ¬ [Sample.legacyIdentity, Sample.upgrade, Sample.replacement].map
          (signedUpdateOf Sample.runtime) <+:
        [Sample.legacyIdentity, Sample.upgrade, Sample.partialReplacement].map
          (signedUpdateOf Sample.runtime) ∧
      ¬ [Sample.legacyIdentity, Sample.upgrade, Sample.partialReplacement].map
          (signedUpdateOf Sample.runtime) <+:
        [Sample.legacyIdentity, Sample.upgrade, Sample.replacement].map
          (signedUpdateOf Sample.runtime) := by
    decide +kernel
  rcases acceptedHistories_fork_accountable _ _ _ _ _ _ (eq_ok_valueOf hok) (eq_ok_valueOf hok')
    (by simp only [List.head?_cons]) with h | h | h
  · exact (hne h).elim
  · exact (hne' h).elim
  · exact h

end DecentRegistry
