import DecentRegistry.Authority.Proofs

/-!
# What each transition checks

One structure of guards for each transition of the state machine, and one theorem for each
transition function: it returns a state exactly when the envelope reads as a candidate, the guards
hold, and the state is the candidate's. Everything that is proved later about accepted envelopes
is read off these.
-/

namespace DecentRegistry

open Fallible PyValue

variable {rt : Runtime}

/-! ## Transitions of a multisignature state -/

/-- The guards of `_validate_common_transition`. -/
structure IsCommonTransition (rt : Runtime) (recordKey : Bytes) (p : Candidate)
    (s : MultisignatureState) : Prop where
  lookupKey : p.derivedRecordKey = recordKey
  recordKey : s.recordKey = recordKey
  recordKind : p.authorization.recordKind = s.recordKind
  owner : ownerPublicKeyField s.recordKind p.recordFields = .ok s.ownerPublicKey
  seq : s.seq < p.seq
  predecessor : p.authorization.predecessorStateHash = s.stateHash
  payloads : s.recordKind = .provider → ∃ current candidate,
    providerPayloads rt p s = .ok (current, candidate) ∧
      ¬ (current.isWithdrawn = true ∧ candidate.isWithdrawn = true)

/-- The guards of an ordinary update; over a withdrawn Provider state there is none. -/
structure IsOrdinaryUpdate (rt : Runtime) (recordKey : Bytes) (p : Candidate)
    (s : MultisignatureState) : Prop extends IsCommonTransition rt recordKey p s where
  operation : p.authorization.operation = .ordinaryUpdate
  active : s.recordKind = .provider → ∃ current candidate,
    providerPayloads rt p s = .ok (current, candidate) ∧ current.isWithdrawn = false
  epoch : p.authorization.epoch = s.epoch
  threshold : p.authorization.threshold = s.threshold
  signerSet : p.authorization.signerSet = s.signerSet
  proofs : ThresholdProofs rt p.signedUpdateBytes p.envelope.proofs s.signerSet s.threshold

/-- The guards of a signer replacement. -/
structure IsSignerReplacement (rt : Runtime) (recordKey : Bytes) (p : Candidate)
    (s : MultisignatureState) : Prop extends IsCommonTransition rt recordKey p s where
  operation : p.authorization.operation = .replaceSigners
  epoch : s.epoch < p.authorization.epoch
  threshold : p.authorization.threshold = 2
  size : p.authorization.signerSet.length = 3
  signerSet : p.authorization.signerSet ≠ s.signerSet
  proofs : ThresholdProofs rt p.signedUpdateBytes p.envelope.proofs s.signerSet s.threshold

/-- The guards of a genesis. -/
structure IsGenesis (rt : Runtime) (recordKey : Bytes) (p : Candidate) : Prop where
  operation : p.authorization.operation = .genesis
  epoch : p.authorization.epoch = 1
  predecessor : p.authorization.predecessorStateHash = List.replicate 32 0
  lookupKey : p.derivedRecordKey = recordKey
  threshold : p.authorization.threshold = 2
  size : p.authorization.signerSet.length = 3
  proofs : ThresholdProofs rt p.signedUpdateBytes p.envelope.proofs p.authorization.signerSet
    p.authorization.threshold

theorem requireComplete2of3_eq_ok {a : Authorization} {u : Unit} :
    requireComplete2of3 a = .ok u ↔ a.threshold = 2 ∧ a.signerSet.length = 3 := by
  simp [requireComplete2of3]

theorem validateCommonTransition_eq_ok {recordKey : Bytes} {p : Candidate}
    {s : MultisignatureState} {u : Unit} :
    validateCommonTransition rt recordKey p s = .ok u ↔ IsCommonTransition rt recordKey p s := by
  by_cases hkind : s.recordKind = .provider
  · simp only [validateCommonTransition, hkind, bind_eq_ok, raiseIf_eq_ok, if_true, not_or,
      not_not, not_le, Prod.exists, exists_const]
    constructor
    · rintro ⟨⟨hkey, hkey'⟩, hkind', owner, howner, rfl, hseq, hpred, current, candidate,
        hpayloads, hwithdrawn⟩
      exact ⟨hkey, hkey', hkind'.trans hkind.symm, hkind ▸ howner, hseq, hpred,
        fun _ => ⟨current, candidate, hpayloads, hwithdrawn⟩⟩
    · intro h
      obtain ⟨current, candidate, hpayloads, hwithdrawn⟩ := h.payloads hkind
      exact ⟨⟨h.lookupKey, h.recordKey⟩, h.recordKind.trans hkind, _, hkind ▸ h.owner, rfl, h.seq,
        h.predecessor, current, candidate, hpayloads, hwithdrawn⟩
  · simp only [validateCommonTransition, hkind, bind_eq_ok, raiseIf_eq_ok, if_false, not_or,
      not_not, not_le, pure_eq_ok, exists_const]
    constructor
    · rintro ⟨⟨hkey, hkey'⟩, hkind', owner, howner, rfl, hseq, hpred, -⟩
      exact ⟨hkey, hkey', hkind', howner, hseq, hpred, fun h => absurd h hkind⟩
    · intro h
      exact ⟨⟨h.lookupKey, h.recordKey⟩, h.recordKind, _, h.owner, rfl, h.seq, h.predecessor,
        trivial⟩

theorem validateMultisignatureGenesis_eq_ok {recordKey e : Bytes} {s : MultisignatureState} :
    validateMultisignatureGenesis rt recordKey e = .ok s ↔
      ∃ p : Candidate, p.Reads rt e ∧ IsGenesis rt recordKey p ∧
        candidateState rt recordKey p (some [e]) = .ok s := by
  simp only [validateMultisignatureGenesis, bind_eq_ok, raiseIf_eq_ok, not_not, exists_const,
    decodeMultisignatureCandidate_eq_ok, requireComplete2of3_eq_ok, validateThresholdProofs_eq_ok]
  constructor
  · rintro ⟨p, hp, hop, hepoch, hpred, hkey, ⟨hthreshold, hsize⟩, hproofs, hs⟩
    exact ⟨p, hp, ⟨hop, hepoch, hpred, hkey, hthreshold, hsize, hproofs⟩, hs⟩
  · rintro ⟨p, hp, h, hs⟩
    exact ⟨p, hp, h.operation, h.epoch, h.predecessor, h.lookupKey, ⟨h.threshold, h.size⟩,
      h.proofs, hs⟩

theorem validateMultisignatureSignerReplacement_eq_ok {recordKey e : Bytes}
    {current s : MultisignatureState} :
    validateMultisignatureSignerReplacement rt recordKey e current = .ok s ↔
      ∃ p : Candidate, p.Reads rt e ∧ IsSignerReplacement rt recordKey p current ∧
        candidateState rt recordKey p (appendHistory current e) = .ok s := by
  simp only [validateMultisignatureSignerReplacement, bind_eq_ok, raiseIf_eq_ok, not_not, not_le,
    exists_const, decodeMultisignatureCandidate_eq_ok, requireComplete2of3_eq_ok,
    validateThresholdProofs_eq_ok, validateCommonTransition_eq_ok]
  constructor
  · rintro ⟨p, hp, hop, hcommon, hepoch, ⟨hthreshold, hsize⟩, hnew, hproofs, hs⟩
    exact ⟨p, hp,
      { hcommon with
        operation := hop
        epoch := hepoch
        threshold := hthreshold
        size := hsize
        signerSet := hnew
        proofs := hproofs }, hs⟩
  · rintro ⟨p, hp, h, hs⟩
    exact ⟨p, hp, h.operation, h.toIsCommonTransition, h.epoch, ⟨h.threshold, h.size⟩,
      h.signerSet, h.proofs, hs⟩

theorem validateMultisignatureOrdinaryUpdate_eq_ok {recordKey e : Bytes}
    {current s : MultisignatureState} :
    validateMultisignatureOrdinaryUpdate rt recordKey e current = .ok s ↔
      ∃ p : Candidate, p.Reads rt e ∧ IsOrdinaryUpdate rt recordKey p current ∧
        candidateState rt recordKey p (appendHistory current e) = .ok s := by
  by_cases hkind : current.recordKind = .provider
  · simp only [validateMultisignatureOrdinaryUpdate, hkind, bind_eq_ok, raiseIf_eq_ok, not_not,
      if_true, exists_const, decodeMultisignatureCandidate_eq_ok, validateCommonTransition_eq_ok,
      Prod.exists, Bool.not_eq_true]
    constructor
    · rintro ⟨p, hp, hop, hcommon, currentPayload, candidate, hpayloads, hactive, h⟩
      have hrest : p.authorization.epoch = current.epoch ∧
          p.authorization.threshold = current.threshold ∧
          p.authorization.signerSet = current.signerSet ∧
          ThresholdProofs rt p.signedUpdateBytes p.envelope.proofs current.signerSet
            current.threshold ∧
          candidateState rt recordKey p (appendHistory current e) = .ok s := by
        split at h <;> simp only [bind_eq_ok, raiseIf_eq_ok, not_not, exists_const,
          validateThresholdProofs_eq_ok] at h
        · exact h.2
        · exact h
      obtain ⟨hepoch, hthreshold, hset, hproofs, hs⟩ := hrest
      exact ⟨p, hp,
        { hcommon with
          operation := hop
          active := fun _ => ⟨currentPayload, candidate, hpayloads, hactive⟩
          epoch := hepoch
          threshold := hthreshold
          signerSet := hset
          proofs := hproofs }, hs⟩
    · rintro ⟨p, hp, h, hs⟩
      obtain ⟨currentPayload, candidate, hpayloads, hactive⟩ := h.active hkind
      refine ⟨p, hp, h.operation, h.toIsCommonTransition, currentPayload, candidate, hpayloads,
        hactive, ?_⟩
      split <;> simp only [bind_eq_ok, raiseIf_eq_ok, not_not, exists_const,
        validateThresholdProofs_eq_ok]
      · exact ⟨h.proofs, h.epoch, h.threshold, h.signerSet, h.proofs, hs⟩
      · exact ⟨h.epoch, h.threshold, h.signerSet, h.proofs, hs⟩
  · simp only [validateMultisignatureOrdinaryUpdate, hkind, bind_eq_ok, raiseIf_eq_ok, not_not,
      if_false, exists_const, decodeMultisignatureCandidate_eq_ok, validateThresholdProofs_eq_ok,
      validateCommonTransition_eq_ok]
    constructor
    · rintro ⟨p, hp, hop, hcommon, hepoch, hthreshold, hset, hproofs, hs⟩
      exact ⟨p, hp,
        { hcommon with
          operation := hop
          active := fun h => absurd h hkind
          epoch := hepoch
          threshold := hthreshold
          signerSet := hset
          proofs := hproofs }, hs⟩
    · rintro ⟨p, hp, h, hs⟩
      exact ⟨p, hp, h.operation, h.toIsCommonTransition, h.epoch, h.threshold,
        h.signerSet, h.proofs, hs⟩

/-! ## Transitions of a legacy record -/

/-- How the parts of a legacy state determine each other. -/
structure LegacyState.Reads (rt : Runtime) (legacy : LegacyState) (recordKey envelopeCbor : Bytes) :
    Prop where
  signed : ∃ signature,
    decodeSignedEnvelope rt envelopeCbor = .ok (legacy.signedUpdateBytes, signature) ∧
      verifyEd25519Signature rt legacy.ownerPublicKey legacy.signedUpdateBytes signature = .ok true
  update : decodeCanonicalSignedUpdate rt legacy.signedUpdateBytes = .ok
    { recordFields := legacy.recordFields, payload := legacy.payload, seq := legacy.seq,
      authorization := none }
  keys : extractLegacyKeys rt legacy.recordFields legacy.payload =
    .ok (legacy.recordKind, recordKey, legacy.ownerPublicKey)

/-- `record_fields.get(field)` is the same byte string, or no byte string, in both records. -/
def SameOwnerField (kind : RecordKind) (fields fields' : Dict) : Prop :=
  (fields.get? (if kind = .identity then 2 else 1)).bind Value.asBytes? =
    (fields'.get? (if kind = .identity then 2 else 1)).bind Value.asBytes?

/-- The guards of an upgrade. -/
structure IsUpgrade (rt : Runtime) (recordKey : Bytes) (p : Candidate) (legacy : LegacyState) :
    Prop where
  operation : p.authorization.operation = .upgrade
  lookupKey : p.derivedRecordKey = recordKey
  recordKind : p.authorization.recordKind = legacy.recordKind
  seq : legacy.seq < p.seq
  epoch : p.authorization.epoch = 1
  predecessor : p.authorization.predecessorStateHash = rt.sha256 legacy.signedUpdateBytes
  threshold : p.authorization.threshold = 2
  size : p.authorization.signerSet.length = 3
  owner : SameOwnerField legacy.recordKind p.recordFields legacy.recordFields
  proof : ∃ signerId signature, p.envelope.proofs = [⟨some signerId, signature⟩] ∧
    signerIdForPublicKey p.authorization legacy.ownerPublicKey = .ok signerId ∧
    verifyEd25519Signature rt legacy.ownerPublicKey p.signedUpdateBytes signature = .ok true

/-- The guards of `_validate_owner_rotation_invariants`. -/
structure IsRotation (recordKey : Bytes) (p : Candidate) (predecessorRecordFields : Dict)
    (predecessorRecordKey : Bytes) (predecessorSeq : ℕ) (predecessorStateHash : Bytes) : Prop where
  operation : p.authorization.operation = .ownerKeyRotation
  recordKind : p.authorization.recordKind = .identity
  ownerName : ∃ v w name, p.recordFields.get? 1 = some v ∧ predecessorRecordFields.get? 1 = some w ∧
    toBytes v = .ok name ∧ toBytes w = .ok name
  owner : ∃ v w owner owner', p.recordFields.get? 2 = some v ∧
    predecessorRecordFields.get? 2 = some w ∧ toBytes v = .ok owner ∧ toBytes w = .ok owner' ∧
    owner ≠ owner'
  lookupKey : p.derivedRecordKey = recordKey
  recordKey : predecessorRecordKey = recordKey
  seq : p.seq = predecessorSeq + 1
  predecessor : p.authorization.predecessorStateHash = predecessorStateHash

/-- The guards of a rotation from a legacy Identity. -/
structure IsRotationFromLegacy (rt : Runtime) (recordKey : Bytes) (p : Candidate)
    (legacy : LegacyState) : Prop extends
    IsRotation recordKey p legacy.recordFields recordKey legacy.seq
      (rt.sha256 legacy.signedUpdateBytes) where
  legacyKind : legacy.recordKind = .identity
  legacyShape : legacy.isIdentityRecord = true
  epoch : p.authorization.epoch = 1
  threshold : p.authorization.threshold = 2
  size : p.authorization.signerSet.length = 3
  successor : ∃ v owner, p.recordFields.get? 2 = some v ∧ toBytes v = .ok owner ∧
    ∃ entry ∈ p.authorization.signerSet, entry.publicKey = owner
  proof : ∃ signature, p.envelope.proofs = [⟨none, signature⟩] ∧
    verifyEd25519Signature rt legacy.ownerPublicKey p.signedUpdateBytes signature = .ok true

/-- The guards of a rotation from a multisignature Identity, less the check of its history. -/
structure IsRotationFromState (rt : Runtime) (recordKey : Bytes) (p : Candidate)
    (s : MultisignatureState) (history : List Bytes) : Prop where
  currentKind : s.recordKind = .identity
  complete : s.history = some history
  legacyAnchor : ∀ anchor ∈ history.head?,
    (decodeMultisignatureEnvelope rt anchor).isOk = false
  rotation : ∃ predecessor,
    decodeMultisignatureSignedUpdate rt s.signedUpdateBytes = .ok predecessor ∧
    IsRotation recordKey p predecessor.recordFields s.recordKey s.seq s.stateHash
  epoch : p.authorization.epoch = s.epoch
  threshold : p.authorization.threshold = s.threshold
  signerSet : p.authorization.signerSet = s.signerSet
  proofs : ThresholdProofs rt p.signedUpdateBytes p.envelope.proofs s.signerSet s.threshold

theorem decodeLegacyState_eq_ok {recordKey e : Bytes} {legacy : LegacyState} :
    decodeLegacyState rt recordKey e = .ok legacy ↔ legacy.Reads rt recordKey e := by
  simp only [decodeLegacyState, bind_eq_ok, raiseIf_eq_ok, requireValidProof_eq_ok, pure_eq_ok,
    exists_const, Prod.exists, not_not]
  constructor
  · rintro ⟨bytes, signature, henvelope, ⟨fields, payload, seq, auth⟩, hupdate, hnone, kind, key,
      owner, hkeys, rfl, hvalid, rfl⟩
    obtain rfl : auth = none := by simpa using hnone
    exact ⟨⟨signature, henvelope, hvalid⟩, hupdate, hkeys⟩
  · rintro ⟨⟨signature, henvelope, hvalid⟩, hupdate, hkeys⟩
    exact ⟨_, signature, henvelope, _, hupdate, by simp, _, _, _, hkeys, rfl, hvalid, rfl⟩

theorem onlyProof_eq_ok {envelope : MultisignatureEnvelope} {message : String} {proof : Proof} :
    onlyProof envelope message = .ok proof ↔ envelope.proofs = [proof] := by
  unfold onlyProof
  split <;> simp_all

theorem validateOwnerRotationInvariants_eq_ok {recordKey : Bytes} {p : Candidate} {fields : Dict}
    {key : Bytes} {seq : ℕ} {hash : Bytes} {u : Unit} :
    validateOwnerRotationInvariants recordKey p fields key seq hash = .ok u ↔
      IsRotation recordKey p fields key seq hash := by
  simp only [validateOwnerRotationInvariants, bind_eq_ok, raiseIf_eq_ok, getItem_eq_ok, not_not,
    not_or, exists_const]
  constructor
  · rintro ⟨hop, hkind, v, hv, name, hname, w, hw, name', hname', rfl, v', hv', owner, howner, w',
      hw', owner', howner', hne, ⟨hkey, hkey'⟩, hseq, hpred⟩
    exact ⟨hop, hkind, ⟨v, w, name, hv, hw, hname, hname'⟩,
      ⟨v', w', owner, owner', hv', hw', howner, howner', hne⟩, hkey, hkey', hseq, hpred⟩
  · intro h
    obtain ⟨v, w, name, hv, hw, hname, hname'⟩ := h.ownerName
    obtain ⟨v', w', owner, owner', hv', hw', howner, howner', hne⟩ := h.owner
    exact ⟨h.operation, h.recordKind, v, hv, name, hname, w, hw, name, hname', rfl, v', hv', owner,
      howner, w', hw', owner', howner', hne, ⟨h.lookupKey, h.recordKey⟩, h.seq, h.predecessor⟩

theorem validateMultisignatureUpgrade_eq_ok {recordKey e anchor : Bytes}
    {s : MultisignatureState} :
    validateMultisignatureUpgrade rt recordKey e anchor = .ok s ↔
      ∃ (p : Candidate) (legacy : LegacyState), p.Reads rt e ∧ legacy.Reads rt recordKey anchor ∧
        IsUpgrade rt recordKey p legacy ∧
        candidateState rt recordKey p (some [anchor, e]) = .ok s := by
  simp only [validateMultisignatureUpgrade, bind_eq_ok, raiseIf_eq_ok, not_not, not_le,
    exists_const, decodeMultisignatureCandidate_eq_ok, decodeLegacyState_eq_ok,
    requireComplete2of3_eq_ok, onlyProof_eq_ok, requireValidProof_eq_ok]
  constructor
  · rintro ⟨p, hp, hop, legacy, hlegacy, hkey, hkind, hseq, hepoch, hpred, ⟨hthreshold, hsize⟩,
      howner, ⟨_, signature⟩, hproof, signerId, hsigner, rfl, hvalid, hs⟩
    exact ⟨p, legacy, hp, hlegacy, ⟨hop, hkey, hkind, hseq, hepoch, hpred, hthreshold, hsize,
      howner, signerId, signature, hproof, hsigner, hvalid⟩, hs⟩
  · rintro ⟨p, legacy, hp, hlegacy, h, hs⟩
    obtain ⟨signerId, signature, hproof, hsigner, hvalid⟩ := h.proof
    exact ⟨p, hp, h.operation, legacy, hlegacy, h.lookupKey, h.recordKind, h.seq, h.epoch,
      h.predecessor, ⟨h.threshold, h.size⟩, h.owner, _, hproof, signerId, hsigner, rfl, hvalid, hs⟩

theorem validateOwnerRotationFromLegacy_eq_ok {recordKey e anchor : Bytes}
    {s : MultisignatureState} :
    validateOwnerRotationFromLegacy rt recordKey e anchor = .ok s ↔
      ∃ (p : Candidate) (legacy : LegacyState), p.Reads rt e ∧ legacy.Reads rt recordKey anchor ∧
        IsRotationFromLegacy rt recordKey p legacy ∧
        candidateState rt recordKey p (some [anchor, e]) = .ok s := by
  simp only [validateOwnerRotationFromLegacy, bind_eq_ok, raiseIf_eq_ok, not_not, exists_const,
    decodeMultisignatureCandidate_eq_ok, decodeLegacyState_eq_ok, requireComplete2of3_eq_ok,
    onlyProof_eq_ok, requireValidProof_eq_ok, validateOwnerRotationInvariants_eq_ok,
    getItem_eq_ok]
  constructor
  · rintro ⟨p, hp, legacy, hlegacy, hkind, hshape, hrotation, hepoch, ⟨hthreshold, hsize⟩, v, hv,
      owner, howner, hmem, ⟨signerId, signature⟩, hproof, hnone, hvalid, hs⟩
    obtain rfl : signerId = none := by simpa using hnone
    exact ⟨p, legacy, hp, hlegacy,
      { hrotation with
        legacyKind := hkind
        legacyShape := by simpa using hshape
        epoch := hepoch
        threshold := hthreshold
        size := hsize
        successor := ⟨v, owner, hv, howner, hmem⟩
        proof := ⟨signature, hproof, hvalid⟩ }, hs⟩
  · rintro ⟨p, legacy, hp, hlegacy, h, hs⟩
    obtain ⟨v, owner, hv, howner, hmem⟩ := h.successor
    obtain ⟨signature, hproof, hvalid⟩ := h.proof
    exact ⟨p, hp, legacy, hlegacy, h.legacyKind, by simpa using h.legacyShape, h.toIsRotation,
      h.epoch, ⟨h.threshold, h.size⟩, v, hv, owner, howner, hmem, _, hproof, by simp, hvalid, hs⟩

/-- The check of the predecessor's history is the only difference between a rotation inside a
replay and one outside. -/
theorem validateOwnerRotationFromState_eq_ok {recordKey e : Bytes}
    {current s : MultisignatureState}
    {verifyHistory : Option (List Bytes → Py MultisignatureState)} :
    validateOwnerRotationFromState rt recordKey e current verifyHistory = .ok s ↔
      ∃ (p : Candidate) (history : List Bytes), p.Reads rt e ∧
        IsRotationFromState rt recordKey p current history ∧
        (∀ replay ∈ verifyHistory, ∃ verified, replay history = .ok verified ∧
          verified.stateHash = current.stateHash ∧
          verified.signedUpdateBytes = current.signedUpdateBytes) ∧
        candidateState rt recordKey p (some (history ++ [e])) = .ok s := by
  cases verifyHistory with
  | none =>
    simp only [validateOwnerRotationFromState, bind_eq_ok, raiseIf_eq_ok, orRaise_eq_ok, not_not,
      exists_const, decodeMultisignatureCandidate_eq_ok, validateThresholdProofs_eq_ok,
      validateOwnerRotationInvariants_eq_ok, not_exists, not_and, Bool.not_eq_true,
      Option.not_mem_none, false_imp_iff, implies_true, true_and]
    constructor
    · rintro ⟨hkind, history, hhistory, hanchor, p, hp, pred, hpred, hrotation, hepoch, hthreshold,
        hset, hproofs, hs⟩
      exact ⟨p, history, hp, ⟨hkind, hhistory, hanchor, ⟨pred, hpred, hrotation⟩, hepoch,
        hthreshold, hset, hproofs⟩, hs⟩
    · rintro ⟨p, history, hp, h, hs⟩
      obtain ⟨pred, hpred, hrotation⟩ := h.rotation
      exact ⟨h.currentKind, history, h.complete, h.legacyAnchor, p, hp, pred, hpred, hrotation,
        h.epoch, h.threshold, h.signerSet, h.proofs, hs⟩
  | some replay =>
    simp only [validateOwnerRotationFromState, bind_eq_ok, raiseIf_eq_ok, orRaise_eq_ok, not_not,
      exists_const, decodeMultisignatureCandidate_eq_ok, validateThresholdProofs_eq_ok,
      validateOwnerRotationInvariants_eq_ok, not_exists, not_and, Bool.not_eq_true, not_or,
      Option.mem_def, Option.some.injEq, forall_eq']
    constructor
    · rintro ⟨hkind, history, hhistory, hanchor, verified, hverified, ⟨hhash, hbytes⟩, p, hp, pred,
        hpred, hrotation, hepoch, hthreshold, hset, hproofs, hs⟩
      exact ⟨p, history, hp, ⟨hkind, hhistory, hanchor, ⟨pred, hpred, hrotation⟩, hepoch,
        hthreshold, hset, hproofs⟩, ⟨verified, hverified, hhash, hbytes⟩, hs⟩
    · rintro ⟨p, history, hp, h, ⟨verified, hverified, hhash, hbytes⟩, hs⟩
      obtain ⟨pred, hpred, hrotation⟩ := h.rotation
      exact ⟨h.currentKind, history, h.complete, h.legacyAnchor, verified, hverified,
        ⟨hhash, hbytes⟩, p, hp, pred, hpred, hrotation, h.epoch, h.threshold, h.signerSet,
        h.proofs, hs⟩

end DecentRegistry
