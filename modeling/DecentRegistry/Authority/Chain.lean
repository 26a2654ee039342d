import DecentRegistry.Authority.Steps
import DecentRegistry.Foundations.Replay
import DecentRegistry.Sample.Records

/-!
# The chain of authority

A replayed history is anchored in an envelope that authorizes itself, a genesis by a quorum of its
own signers or a legacy Identity by its owner, and from there every envelope is authorized by its
immediate predecessor alone (`validateMultisignatureHistory_chain`). `AuthorizedBy` says what that
means for each operation; in it the candidate's own signer set does not occur.
-/

namespace DecentRegistry

open Fallible PyValue Quorum Replay

variable {rt : Runtime}

/-- A genesis signed by two of its own three signers. -/
def GenesisAnchor (rt : Runtime) (e : Bytes) : Prop :=
  ∃ p, decodeMultisignatureCandidate rt e = .ok p ∧ p.authorization.operation = .genesis ∧
    p.authorization.signerSet.length = 3 ∧
    (p.authorization.signerSet.map (·.publicKey)).Nodup ∧
    p.envelope.signedUpdateBytes = p.signedUpdateBytes ∧
    IsQuorum (p.authorization.signerSet.map (·.publicKey)) (CarriesSignatureBy rt p.envelope) 2

/-- A legacy Identity signed by its own owner. -/
def LegacyAnchor (rt : Runtime) (recordKey e : Bytes) : Prop :=
  ∃ legacy signature, decodeLegacyState rt recordKey e = .ok legacy ∧
    legacy.recordKind = .identity ∧
    decodeSignedEnvelope rt e = .ok (legacy.signedUpdateBytes, signature) ∧
    verifyEd25519Signature rt legacy.ownerPublicKey legacy.signedUpdateBytes signature = .ok true

/-- The predecessor is a multisignature state, and a quorum of its signers signed. -/
def QuorumOfPredecessor (rt : Runtime) (previous : Bytes) (p : Candidate) : Prop :=
  ∃ q, decodeMultisignatureCandidate rt previous = .ok q ∧
    IsQuorum (q.authorization.signerSet.map (·.publicKey)) (CarriesSignatureBy rt p.envelope)
      q.authorization.threshold

/-- The predecessor is a legacy record, and the one proof is its owner's. -/
def OwnerOfPredecessor (rt : Runtime) (recordKey previous : Bytes) (p : Candidate) : Prop :=
  ∃ legacy proof, decodeLegacyState rt recordKey previous = .ok legacy ∧
    p.envelope.proofs = [proof] ∧
    verifyEd25519Signature rt legacy.ownerPublicKey p.envelope.signedUpdateBytes proof.signature =
      .ok true

/-- What authorizes a candidate that follows `previous`. -/
def AuthorizedBy (rt : Runtime) (recordKey previous : Bytes) (p : Candidate) : Prop :=
  match p.authorization.operation with
  | .genesis => False
  | .ordinaryUpdate | .replaceSigners => QuorumOfPredecessor rt previous p
  | .upgrade => OwnerOfPredecessor rt recordKey previous p
  | .ownerKeyRotation =>
    QuorumOfPredecessor rt previous p ∨ OwnerOfPredecessor rt recordKey previous p

/-- An envelope names the SignedUpdate of the one before it and is authorized by it. -/
def Succeeds (rt : Runtime) (recordKey previous e : Bytes) : Prop :=
  ∃ p signedUpdateBytes, decodeMultisignatureCandidate rt e = .ok p ∧
    p.envelope.signedUpdateBytes = p.signedUpdateBytes ∧
    signedUpdateOf rt previous = .ok signedUpdateBytes ∧
    p.authorization.predecessorStateHash = rt.sha256 signedUpdateBytes ∧
    AuthorizedBy rt recordKey previous p

/-! ## What a state knows of its envelope -/

/-- The replay state was reached by consuming the envelope. -/
def StandsAt (rt : Runtime) (recordKey : Bytes) : ReplayState → Bytes → Prop
  | .legacyAnchor anchor, e => anchor = e ∧ ∃ legacy : LegacyState, legacy.Reads rt recordKey e
  | .state s, e => ∃ (p : Candidate) (history : Option (List Bytes)), p.Reads rt e ∧
      candidateState rt recordKey p history = .ok s

theorem signedUpdateOf_candidate {p : Candidate} {e : Bytes} (h : p.Reads rt e) :
    signedUpdateOf rt e = .ok p.signedUpdateBytes := by
  simp [signedUpdateOf, isMultisignatureEnvelope_of_decode h.envelope, h.envelope,
    h.signedUpdateBytes]

theorem signedUpdateOf_legacy {legacy : LegacyState} {recordKey e : Bytes}
    (h : legacy.Reads rt recordKey e) : signedUpdateOf rt e = .ok legacy.signedUpdateBytes := by
  obtain ⟨_, hsigned, -⟩ := h.signed
  simp [signedUpdateOf, isMultisignatureEnvelope_of_legacy hsigned, hsigned]

/-- The hash a state keeps is the hash of its envelope's SignedUpdate. -/
theorem candidateState_stateHash {p : Candidate} {recordKey : Bytes}
    {history : Option (List Bytes)} {s : MultisignatureState}
    (h : candidateState rt recordKey p history = .ok s) :
    s.stateHash = rt.sha256 p.signedUpdateBytes ∧ s.threshold = p.authorization.threshold ∧
      s.signerSet = p.authorization.signerSet := by
  obtain ⟨owner, -, rfl⟩ := candidateState_eq_ok.1 h
  exact ⟨rfl, rfl, rfl⟩

/-! ## One step -/

/-- Proofs accepted against the current state are a quorum of the previous envelope's signers. -/
theorem quorumOfPredecessor {p q : Candidate} {recordKey previous e : Bytes}
    {history : Option (List Bytes)} {current : MultisignatureState} (hp : p.Reads rt e)
    (hq : q.Reads rt previous) (hcurrent : candidateState rt recordKey q history = .ok current)
    (proofs : ThresholdProofs rt p.signedUpdateBytes p.envelope.proofs current.signerSet
      current.threshold) :
    QuorumOfPredecessor rt previous p := by
  obtain ⟨-, hthreshold, hset⟩ := candidateState_stateHash hcurrent
  rw [hthreshold, hset, ← hp.signedUpdateBytes] at proofs
  exact ⟨q, decodeMultisignatureCandidate_eq_ok.2 hq, proofs.quorum hq.canonical.signers⟩

/-- The one proof of an upgrade or a legacy rotation is the legacy owner's. -/
theorem ownerOfPredecessor {p : Candidate} {legacy : LegacyState} {recordKey previous e : Bytes}
    {signerId : Option Text} {signature : Bytes} (hp : p.Reads rt e)
    (hlegacy : legacy.Reads rt recordKey previous)
    (hproof : p.envelope.proofs = [⟨signerId, signature⟩])
    (hvalid : verifyEd25519Signature rt legacy.ownerPublicKey p.signedUpdateBytes signature =
      .ok true) :
    OwnerOfPredecessor rt recordKey previous p :=
  ⟨legacy, ⟨signerId, signature⟩, decodeLegacyState_eq_ok.2 hlegacy, hproof,
    hp.signedUpdateBytes ▸ hvalid⟩

/-- A step from a multisignature state names that state and is authorized by its signers. -/
theorem succeeds_of_state {p q : Candidate} {recordKey previous e : Bytes}
    {history history' : Option (List Bytes)} {current : MultisignatureState} (hp : p.Reads rt e)
    (hstep : IsStep rt recordKey e p (some current) none history') (hq : q.Reads rt previous)
    (hcurrent : candidateState rt recordKey q history = .ok current) :
    Succeeds rt recordKey previous e := by
  obtain ⟨hhash, -, -⟩ := candidateState_stateHash hcurrent
  refine ⟨p, q.signedUpdateBytes, decodeMultisignatureCandidate_eq_ok.2 hp, hp.signedUpdateBytes,
    signedUpdateOf_candidate hq, ?_⟩
  cases hstep with
  | ordinaryUpdate h =>
    refine ⟨h.predecessor.trans hhash, ?_⟩
    simp only [AuthorizedBy, h.operation]
    exact quorumOfPredecessor hp hq hcurrent h.proofs
  | replaceSigners h =>
    refine ⟨h.predecessor.trans hhash, ?_⟩
    simp only [AuthorizedBy, h.operation]
    exact quorumOfPredecessor hp hq hcurrent h.proofs
  | rotate h =>
    obtain ⟨_, -, hrotation⟩ := h.rotation
    refine ⟨hrotation.predecessor.trans hhash, ?_⟩
    simp only [AuthorizedBy, hrotation.operation]
    exact .inl (quorumOfPredecessor hp hq hcurrent h.proofs)

/-- A step from a legacy record names that record and is authorized by its owner. -/
theorem succeeds_of_legacy {p : Candidate} {recordKey previous e : Bytes}
    {history : Option (List Bytes)} (hp : p.Reads rt e)
    (hstep : IsStep rt recordKey e p none (some previous) history) :
    Succeeds rt recordKey previous e := by
  cases hstep with
  | upgrade hlegacy h =>
    obtain ⟨signerId, signature, hproof, -, hvalid⟩ := h.proof
    refine ⟨p, _, decodeMultisignatureCandidate_eq_ok.2 hp, hp.signedUpdateBytes,
      signedUpdateOf_legacy hlegacy, h.predecessor, ?_⟩
    simp only [AuthorizedBy, h.operation]
    exact ownerOfPredecessor hp hlegacy hproof hvalid
  | rotateLegacy hlegacy h =>
    obtain ⟨signature, hproof, hvalid⟩ := h.proof
    refine ⟨p, _, decodeMultisignatureCandidate_eq_ok.2 hp, hp.signedUpdateBytes,
      signedUpdateOf_legacy hlegacy, h.predecessor, ?_⟩
    simp only [AuthorizedBy, h.operation]
    exact .inr (ownerOfPredecessor hp hlegacy hproof hvalid)

/-- One round of the replay: the envelope succeeds the one before it. -/
theorem replayStep_succeeds {recordKey previous e : Bytes} {r t : ReplayState}
    (hr : StandsAt rt recordKey r previous) (h : replayStep rt recordKey r e = .ok t) :
    Succeeds rt recordKey previous e ∧ StandsAt rt recordKey t e := by
  obtain ⟨p, history, s, hp, hstep, hs, rfl⟩ := replayStep_eq_ok.1 h
  refine ⟨?_, p, history, hp, hs⟩
  cases r with
  | legacyAnchor anchor =>
    obtain ⟨rfl, -⟩ := hr
    exact succeeds_of_legacy hp hstep
  | state current =>
    obtain ⟨q, history', hq, hcurrent⟩ := hr
    exact succeeds_of_state hp hstep hq hcurrent

/-! ## The whole replay -/

theorem IsAnchor.standsAt {recordKey first : Bytes} {r : ReplayState}
    (h : IsAnchor rt recordKey first r) : StandsAt rt recordKey r first := by
  cases h with
  | legacy reads => exact ⟨rfl, _, reads⟩
  | genesis reads _ _ state => exact ⟨_, _, reads, state⟩

theorem IsAnchor.authorized {recordKey first : Bytes} {r : ReplayState}
    (h : IsAnchor rt recordKey first r) :
    GenesisAnchor rt first ∨ LegacyAnchor rt recordKey first := by
  cases h with
  | legacy reads recordKind =>
    obtain ⟨signature, hsigned, hvalid⟩ := reads.signed
    exact .inr ⟨_, signature, decodeLegacyState_eq_ok.2 reads, recordKind, hsigned, hvalid⟩
  | @genesis p _ reads h =>
    have hproofs := h.proofs
    rw [h.threshold, ← reads.signedUpdateBytes] at hproofs
    exact .inl ⟨p, decodeMultisignatureCandidate_eq_ok.2 reads, h.operation, h.size,
      reads.canonical.signers.keys_nodup, reads.signedUpdateBytes,
      hproofs.quorum reads.canonical.signers⟩

/-- An accepted history is a replay from its anchor. -/
theorem validateMultisignatureHistory_eq_ok {recordKey : Bytes} {envelopes : List Bytes}
    {s : MultisignatureState} :
    validateMultisignatureHistory rt recordKey envelopes = .ok s ↔
      Replays (IsAnchor rt recordKey) (replayStep rt recordKey) envelopes (.state s) ∧
        s.history = some envelopes := by
  rw [replays_iff]
  cases envelopes with
  | nil => simp [validateMultisignatureHistory]
  | cons first rest =>
    simp only [validateMultisignatureHistory, bind_eq_ok, replayAnchor_eq_ok]
    constructor
    · rintro ⟨r, hr, t, ht, h⟩
      cases t with
      | legacyAnchor _ => simp at h
      | state s' =>
        simp only [bind_eq_ok, raiseIf_eq_ok, not_not, pure_eq_ok] at h
        obtain ⟨-, hhistory, rfl⟩ := h
        exact ⟨⟨first, rest, r, rfl, hr, ht⟩, hhistory⟩
    · rintro ⟨⟨first', rest', r, heq, hr, ht⟩, hhistory⟩
      obtain ⟨rfl, rfl⟩ := List.cons.inj heq
      exact ⟨r, hr, _, ht, by simp [hhistory]⟩

/-- **The chain of authority.** An accepted history begins at an envelope that authorizes itself,
and every later one names and is authorized by its immediate predecessor. -/
theorem validateMultisignatureHistory_chain (rt : Runtime) (recordKey : Bytes)
    (envelopes : List Bytes) (s : MultisignatureState)
    (h : validateMultisignatureHistory rt recordKey envelopes = .ok s) :
    (∃ first rest, envelopes = first :: rest ∧
        (GenesisAnchor rt first ∨ LegacyAnchor rt recordKey first)) ∧
      List.IsChain (Succeeds rt recordKey) envelopes := by
  obtain ⟨first, rest, r, rfl, hanchor, hreplay⟩ :=
    replays_iff.1 (validateMultisignatureHistory_eq_ok.1 h).1
  refine ⟨⟨first, rest, rfl, hanchor.authorized⟩, ?_⟩
  exact foldlM_isChain (StandsAt rt recordKey) (Succeeds rt recordKey)
    (fun r previous e t hr ht => replayStep_succeeds hr ht) hanchor.standsAt hreplay

/-- A legacy Identity, its upgrade, a replacement of all but one signer and a rotation. -/
theorem sampleHistory_chain :
    (∃ s, validateMultisignatureHistory Sample.runtime Sample.identityKey
        [Sample.legacyIdentity, Sample.upgrade, Sample.replacement, Sample.rotation] = .ok s) ∧
      List.IsChain (Succeeds Sample.runtime Sample.identityKey)
        [Sample.legacyIdentity, Sample.upgrade, Sample.replacement, Sample.rotation] := by
  have h := eq_ok_valueOf (x := validateMultisignatureHistory Sample.runtime Sample.identityKey
    [Sample.legacyIdentity, Sample.upgrade, Sample.replacement, Sample.rotation])
    (by decide +kernel)
  exact ⟨⟨_, h⟩, (validateMultisignatureHistory_chain _ _ _ _ h).2⟩

end DecentRegistry
