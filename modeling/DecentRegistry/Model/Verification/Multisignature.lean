import DecentRegistry.Model.Verification.Legacy

/-!
# The multisignature state machine

The second half of `verification.py`: the five transitions of a multisignature record (genesis,
ordinary update, signer replacement, upgrade of a legacy record, owner-key rotation), the entry
point `validateMultisignatureUpdate` that dispatches on the operation of the candidate, and
`validateMultisignatureHistory`, which replays a list of envelopes from a signed anchor.

In the source the last two call each other. The replay reaches the dispatcher only for operations
other than rotation, so `validateMultisignatureUpdateWith` takes what to do for a rotation from a
multisignature state as an argument: nothing that can be reached, for the replay, and the check of
the predecessor's history by a replay, for `validateMultisignatureUpdate`.
-/

namespace DecentRegistry

open Fallible PyValue

/-! ## Candidates and states -/

/-- What `_decode_multisignature_candidate` returns, less the dictionary whose entries are the
other components. -/
structure Candidate where
  signedUpdateBytes : Bytes
  envelope : MultisignatureEnvelope
  recordFields : Dict
  payload : Dict
  seq : ℕ
  derivedRecordKey : Bytes
  authorization : Authorization

/-- `MultisignatureState`. -/
structure MultisignatureState where
  recordKey : Bytes
  recordKind : RecordKind
  ownerPublicKey : Bytes
  signedUpdateBytes : Bytes
  stateHash : Bytes
  epoch : ℕ
  seq : ℕ
  threshold : ℕ
  signerSet : List SignerEntry
  history : Option (List Bytes)
  deriving DecidableEq

/-- The Owner Public Key field of a record: field 2 of an Identity, field 1 of a Provider. -/
def ownerPublicKeyField (recordKind : RecordKind) (recordFields : Dict) : Py Bytes := do
  match recordKind with
  | .identity => toBytes (← getItem recordFields 2)
  | .provider => toBytes (← getItem recordFields 1)

variable (rt : Runtime)

/-- `_decode_multisignature_candidate`. -/
def decodeMultisignatureCandidate (envelopeCbor : Bytes) : Py Candidate := do
  let envelope ← decodeMultisignatureEnvelope rt envelopeCbor
  let update ← decodeMultisignatureSignedUpdate rt envelope.signedUpdateBytes
  let (derivedRecordKey, _) ←
    match update.authorization.recordKind with
    | .identity => extractIdentityAndKeys rt update.recordFields
    | .provider => extractProviderAndKeys update.recordFields update.payload
  return { signedUpdateBytes := envelope.signedUpdateBytes, envelope,
           recordFields := update.recordFields, payload := update.payload, seq := update.seq,
           derivedRecordKey, authorization := update.authorization }

/-- `_candidate_state`. -/
def candidateState (recordKey : Bytes) (parsed : Candidate) (history : Option (List Bytes)) :
    Py MultisignatureState := do
  let recordKind := parsed.authorization.recordKind
  let ownerPublicKey ← ownerPublicKeyField recordKind parsed.recordFields
  return { recordKey, recordKind, ownerPublicKey, signedUpdateBytes := parsed.signedUpdateBytes,
           stateHash := rt.sha256 parsed.signedUpdateBytes, epoch := parsed.authorization.epoch,
           seq := parsed.seq, threshold := parsed.authorization.threshold,
           signerSet := parsed.authorization.signerSet,
           history := if recordKind = .identity then history else none }

/-- `_append_history`. -/
def appendHistory (currentState : MultisignatureState) (envelopeCbor : Bytes) :
    Option (List Bytes) :=
  currentState.history.map (· ++ [envelopeCbor])

/-- `_require_complete_2_of_3`. -/
def requireComplete2of3 (authorization : Authorization) : Py Unit :=
  raiseIf (authorization.threshold ≠ 2 ∨ authorization.signerSet.length ≠ 3)
    (valueError "complete 2-of-3 Signer Set required")

/-- `_signer_id_for_public_key`. -/
def signerIdForPublicKey (authorization : Authorization) (publicKey : Bytes) : Py Text :=
  match authorization.signerSet.filter (·.publicKey = publicKey) with
  | [entry] => return entry.signerId
  | _ => throw (valueError "legacy owner must be present in next Signer Set")

/-! ## Proofs -/

/-- `dict(signer_set).get(signer_id)`: the last entry of that name. -/
def lookupSigner (signerSet : List SignerEntry) : Option Text → Option Bytes
  | none => none
  | some signerId => (signerSet.reverse.find? (·.signerId = signerId)).map (·.publicKey)

/-- One proof: its signature verifies, or the message is raised. -/
def requireValidProof (publicKey signedUpdateBytes signature : Bytes) (message : String) :
    Py Unit := do
  let valid ← rewrap (verifyEd25519Signature rt publicKey signedUpdateBytes signature)
    (valueError message)
  raiseIf (!valid) (valueError message)

/-- The loop of `_validate_threshold_proofs`; returns the identifiers seen. -/
def checkThresholdProofs (signedUpdateBytes : Bytes) (signerSet : List SignerEntry) :
    List Proof → List (Option Text) → Py (List (Option Text))
  | [], seen => return seen
  | proof :: rest, seen => do
    raiseIf (proof.signerId ∈ seen) (valueError "duplicate proof signer")
    let publicKey ← orRaise (lookupSigner signerSet proof.signerId)
      (valueError "proof is not from current Signer Set")
    requireValidProof rt publicKey signedUpdateBytes proof.signature "invalid proof signature"
    checkThresholdProofs signedUpdateBytes signerSet rest (seen ++ [proof.signerId])

/-- `_validate_threshold_proofs`. -/
def validateThresholdProofs (signedUpdateBytes : Bytes) (envelope : MultisignatureEnvelope)
    (signerSet : List SignerEntry) (threshold : ℕ) : Py Unit := do
  raiseIf (envelope.proofs.length < threshold) (valueError "insufficient quorum")
  let seen ← checkThresholdProofs rt signedUpdateBytes signerSet envelope.proofs []
  raiseIf (seen.length < threshold) (valueError "insufficient quorum")

/-- The one proof an envelope must carry where the legacy owner authorizes. -/
def onlyProof (envelope : MultisignatureEnvelope) (message : String) : Py Proof :=
  match envelope.proofs with
  | [proof] => return proof
  | _ => throw (valueError message)

/-! ## Transitions of a multisignature state -/

/-- The payloads of the current state and the candidate, for a Provider Record. -/
def providerPayloads (parsed : Candidate) (currentState : MultisignatureState) :
    Py (ProviderPayload × ProviderPayload) := do
  let currentUpdate ← decodeMultisignatureSignedUpdate rt currentState.signedUpdateBytes
  let currentPayload ← decodeProviderPayloadDict currentUpdate.payload
  let candidatePayload ← decodeProviderPayloadDict parsed.payload
  return (currentPayload, candidatePayload)

/-- `ProviderAlreadyWithdrawn("Provider Record is already withdrawn")`. -/
def alreadyWithdrawn : PyError :=
  ⟨.providerAlreadyWithdrawn, "Provider Record is already withdrawn"⟩

/-- `_validate_common_transition`. -/
def validateCommonTransition (recordKey : Bytes) (parsed : Candidate)
    (currentState : MultisignatureState) : Py Unit := do
  raiseIf (parsed.derivedRecordKey ≠ recordKey ∨ currentState.recordKey ≠ recordKey)
    (valueError "lookup-key mismatch")
  raiseIf (parsed.authorization.recordKind ≠ currentState.recordKind)
    (valueError "wrong record kind")
  let candidateOwnerPublicKey ← ownerPublicKeyField currentState.recordKind parsed.recordFields
  raiseIf (candidateOwnerPublicKey ≠ currentState.ownerPublicKey)
    (valueError "owner binding mismatch")
  raiseIf (parsed.seq ≤ currentState.seq) (valueError "seq must be strictly increasing")
  raiseIf (parsed.authorization.predecessorStateHash ≠ currentState.stateHash)
    (valueError "predecessor state mismatch")
  if currentState.recordKind = .provider then
    let (currentPayload, candidatePayload) ← providerPayloads rt parsed currentState
    raiseIf (currentPayload.isWithdrawn ∧ candidatePayload.isWithdrawn) alreadyWithdrawn

/-- `validate_multisignature_genesis`. -/
def validateMultisignatureGenesis (recordKey envelopeCbor : Bytes) : Py MultisignatureState := do
  let parsed ← decodeMultisignatureCandidate rt envelopeCbor
  let authorization := parsed.authorization
  raiseIf (authorization.operation ≠ .genesis) (valueError "expected genesis operation")
  raiseIf (authorization.epoch ≠ 1) (valueError "genesis epoch must be 1")
  raiseIf (authorization.predecessorStateHash ≠ List.replicate 32 0)
    (valueError "genesis predecessor must be zero")
  raiseIf (parsed.derivedRecordKey ≠ recordKey) (valueError "lookup-key mismatch")
  requireComplete2of3 authorization
  validateThresholdProofs rt parsed.signedUpdateBytes parsed.envelope authorization.signerSet
    authorization.threshold
  candidateState rt recordKey parsed (some [envelopeCbor])

/-- `validate_multisignature_ordinary_update`. -/
def validateMultisignatureOrdinaryUpdate (recordKey envelopeCbor : Bytes)
    (currentState : MultisignatureState) : Py MultisignatureState := do
  let parsed ← decodeMultisignatureCandidate rt envelopeCbor
  let authorization := parsed.authorization
  raiseIf (authorization.operation ≠ .ordinaryUpdate)
    (valueError "expected ordinary update operation")
  validateCommonTransition rt recordKey parsed currentState
  if currentState.recordKind = .provider then
    let (currentPayload, candidatePayload) ← providerPayloads rt parsed currentState
    raiseIf currentPayload.isWithdrawn alreadyWithdrawn
    if candidatePayload.isWithdrawn then
      validateThresholdProofs rt parsed.signedUpdateBytes parsed.envelope currentState.signerSet
        currentState.threshold
  raiseIf (authorization.epoch ≠ currentState.epoch)
    (valueError "epoch does not match current state")
  raiseIf (authorization.threshold ≠ currentState.threshold)
    (valueError "signer set threshold changed during ordinary update")
  raiseIf (authorization.signerSet ≠ currentState.signerSet)
    (valueError "signer set must remain unchanged")
  validateThresholdProofs rt parsed.signedUpdateBytes parsed.envelope currentState.signerSet
    currentState.threshold
  candidateState rt recordKey parsed (appendHistory currentState envelopeCbor)

/-- `validate_multisignature_signer_replacement`. -/
def validateMultisignatureSignerReplacement (recordKey envelopeCbor : Bytes)
    (currentState : MultisignatureState) : Py MultisignatureState := do
  let parsed ← decodeMultisignatureCandidate rt envelopeCbor
  let authorization := parsed.authorization
  raiseIf (authorization.operation ≠ .replaceSigners)
    (valueError "expected signer replacement operation")
  validateCommonTransition rt recordKey parsed currentState
  raiseIf (authorization.epoch ≤ currentState.epoch) (valueError "replacement epoch must increase")
  requireComplete2of3 authorization
  raiseIf (authorization.signerSet = currentState.signerSet)
    (valueError "signer replacement must install a new signer set")
  validateThresholdProofs rt parsed.signedUpdateBytes parsed.envelope currentState.signerSet
    currentState.threshold
  candidateState rt recordKey parsed (appendHistory currentState envelopeCbor)

/-! ## Transitions of a legacy record -/

/-- What `_decode_legacy_state` returns. -/
structure LegacyState where
  signedUpdateBytes : Bytes
  recordFields : Dict
  payload : Dict
  seq : ℕ
  recordKind : RecordKind
  ownerPublicKey : Bytes

/-- The reading of a legacy record: Identity, or on a `ValueError` Provider. -/
def extractLegacyKeys (recordFields payload : Dict) : Py (RecordKind × Bytes × Bytes) :=
  match extractIdentityAndKeys rt recordFields with
  | .ok (recordKey, ownerPublicKey) => return (.identity, recordKey, ownerPublicKey)
  | .error e =>
    if e.cls.isValueError then do
      let (recordKey, ownerPublicKey) ← extractProviderAndKeys recordFields payload
      return (.provider, recordKey, ownerPublicKey)
    else throw e

/-- `_decode_legacy_state`. -/
def decodeLegacyState (recordKey envelopeCbor : Bytes) : Py LegacyState := do
  let (signedUpdateBytes, signature) ← decodeSignedEnvelope rt envelopeCbor
  let signedUpdate ← decodeCanonicalSignedUpdate rt signedUpdateBytes
  raiseIf signedUpdate.authorization.isSome
    (valueError "legacy owner state must use the legacy SignedUpdate shape")
  let (recordKind, recordKeyFromUpdate, ownerPublicKey) ←
    extractLegacyKeys rt signedUpdate.recordFields signedUpdate.payload
  raiseIf (recordKeyFromUpdate ≠ recordKey) (valueError "legacy lookup-key mismatch")
  requireValidProof rt ownerPublicKey signedUpdateBytes signature "invalid legacy owner signature"
  return { signedUpdateBytes, recordFields := signedUpdate.recordFields,
           payload := signedUpdate.payload, seq := signedUpdate.seq, recordKind, ownerPublicKey }

/-- `validate_multisignature_upgrade`. -/
def validateMultisignatureUpgrade (recordKey envelopeCbor legacyEnvelopeCbor : Bytes) :
    Py MultisignatureState := do
  let parsed ← decodeMultisignatureCandidate rt envelopeCbor
  let authorization := parsed.authorization
  raiseIf (authorization.operation ≠ .upgrade) (valueError "expected upgrade operation")
  let legacy ← decodeLegacyState rt recordKey legacyEnvelopeCbor
  raiseIf (parsed.derivedRecordKey ≠ recordKey) (valueError "lookup-key mismatch")
  raiseIf (authorization.recordKind ≠ legacy.recordKind) (valueError "wrong record kind")
  raiseIf (parsed.seq ≤ legacy.seq) (valueError "seq must be strictly increasing")
  raiseIf (authorization.epoch ≠ 1) (valueError "upgrade epoch must be 1")
  raiseIf (authorization.predecessorStateHash ≠ rt.sha256 legacy.signedUpdateBytes)
    (valueError "predecessor state mismatch")
  requireComplete2of3 authorization
  -- the field compared holds a byte string in both records
  let ownerField : Int := if legacy.recordKind = .identity then 2 else 1
  raiseIf ((parsed.recordFields.get? ownerField).bind Value.asBytes? ≠
      (legacy.recordFields.get? ownerField).bind Value.asBytes?)
    (valueError "legacy owner binding changed during upgrade")
  let legacyProof ← onlyProof parsed.envelope "upgrade requires one legacy owner proof"
  let expectedSignerId ← signerIdForPublicKey authorization legacy.ownerPublicKey
  raiseIf (legacyProof.signerId ≠ some expectedSignerId)
    (valueError "legacy owner proof signer_id mismatch")
  requireValidProof rt legacy.ownerPublicKey parsed.signedUpdateBytes legacyProof.signature
    "invalid legacy owner proof"
  candidateState rt recordKey parsed (some [legacyEnvelopeCbor, envelopeCbor])

/-! ## Owner-key rotation -/

/-- `_validate_owner_rotation_invariants`. -/
def validateOwnerRotationInvariants (recordKey : Bytes) (parsed : Candidate)
    (predecessorRecordFields : Dict) (predecessorRecordKey : Bytes) (predecessorSeq : ℕ)
    (predecessorStateHash : Bytes) : Py Unit := do
  raiseIf (parsed.authorization.operation ≠ .ownerKeyRotation)
    (valueError "expected owner-key-rotation operation")
  raiseIf (parsed.authorization.recordKind ≠ .identity)
    (valueError "owner-key rotation requires an Identity Record")
  raiseIf ((← toBytes (← getItem parsed.recordFields 1)) ≠
      (← toBytes (← getItem predecessorRecordFields 1)))
    (valueError "owner_name bytes mismatch")
  raiseIf ((← toBytes (← getItem parsed.recordFields 2)) =
      (← toBytes (← getItem predecessorRecordFields 2)))
    (valueError "Owner Public Key must change during rotation")
  raiseIf (parsed.derivedRecordKey ≠ recordKey ∨ predecessorRecordKey ≠ recordKey)
    (valueError "lookup-key mismatch")
  raiseIf (parsed.seq ≠ predecessorSeq + 1)
    (valueError "rotation seq must be exactly predecessor seq plus one")
  raiseIf (parsed.authorization.predecessorStateHash ≠ predecessorStateHash)
    (valueError "predecessor state mismatch")

/-- `set(legacy_record_fields) != {1, 2} or legacy_payload` is false: the record has exactly the
fields of an Identity Record. -/
def LegacyState.isIdentityRecord (legacy : LegacyState) : Bool :=
  legacy.recordFields.keysAre [1, 2] && legacy.payload.isEmpty

/-- `_validate_owner_rotation_from_legacy`. -/
def validateOwnerRotationFromLegacy (recordKey envelopeCbor legacyEnvelopeCbor : Bytes) :
    Py MultisignatureState := do
  let parsed ← decodeMultisignatureCandidate rt envelopeCbor
  let authorization := parsed.authorization
  let legacy ← decodeLegacyState rt recordKey legacyEnvelopeCbor
  raiseIf (legacy.recordKind ≠ .identity)
    (valueError "owner-key rotation requires a legacy Identity predecessor")
  raiseIf (!legacy.isIdentityRecord) (valueError "legacy predecessor is not an Identity Record")
  validateOwnerRotationInvariants recordKey parsed legacy.recordFields recordKey legacy.seq
    (rt.sha256 legacy.signedUpdateBytes)
  raiseIf (authorization.epoch ≠ 1) (valueError "legacy owner rotation epoch must be 1")
  requireComplete2of3 authorization
  let candidateOwnerPublicKey ← toBytes (← getItem parsed.recordFields 2)
  raiseIf (¬ ∃ entry ∈ authorization.signerSet, entry.publicKey = candidateOwnerPublicKey)
    (valueError "successor Owner Public Key must be in successor Signer Set")
  let proof ← onlyProof parsed.envelope "legacy owner rotation requires exactly one proof"
  raiseIf proof.signerId.isSome
    (valueError "legacy owner rotation proof signer_id must be null")
  requireValidProof rt legacy.ownerPublicKey parsed.signedUpdateBytes proof.signature
    "invalid legacy owner rotation proof"
  candidateState rt recordKey parsed (some [legacyEnvelopeCbor, envelopeCbor])

/-- `_validate_owner_rotation_from_state`; `verifyHistory` is the replay it runs on the
predecessor's history when it is told to verify it. -/
def validateOwnerRotationFromState (recordKey envelopeCbor : Bytes)
    (currentState : MultisignatureState)
    (verifyHistory : Option (List Bytes → Py MultisignatureState)) : Py MultisignatureState := do
  raiseIf (currentState.recordKind ≠ .identity)
    (valueError "owner-key rotation requires an Identity Record predecessor")
  let history ← orRaise currentState.history
    (valueError "complete predecessor history is required for owner rotation")
  raiseIf (∃ anchor ∈ history.head?, (decodeMultisignatureEnvelope rt anchor).isOk)
    (valueError "predecessor history must include a signed legacy anchor")
  match verifyHistory with
  | none => pure ()
  | some replay =>
    let verifiedState ← replay history
    raiseIf (verifiedState.stateHash ≠ currentState.stateHash ∨
        verifiedState.signedUpdateBytes ≠ currentState.signedUpdateBytes)
      (valueError "predecessor history does not match current state")
  let parsed ← decodeMultisignatureCandidate rt envelopeCbor
  let authorization := parsed.authorization
  let predecessor ← decodeMultisignatureSignedUpdate rt currentState.signedUpdateBytes
  validateOwnerRotationInvariants recordKey parsed predecessor.recordFields
    currentState.recordKey currentState.seq currentState.stateHash
  raiseIf (authorization.epoch ≠ currentState.epoch)
    (valueError "rotation epoch must preserve the predecessor epoch")
  raiseIf (authorization.threshold ≠ currentState.threshold)
    (valueError "rotation threshold must preserve the predecessor threshold")
  raiseIf (authorization.signerSet ≠ currentState.signerSet)
    (valueError "rotation must preserve the predecessor Signer Set")
  validateThresholdProofs rt parsed.signedUpdateBytes parsed.envelope currentState.signerSet
    currentState.threshold
  candidateState rt recordKey parsed (some (history ++ [envelopeCbor]))

/-! ## Dispatch -/

/-- The body of `validate_multisignature_update`, given what it does for a rotation from a
multisignature state. -/
def validateMultisignatureUpdateWith
    (rotateFromState : MultisignatureState → Py MultisignatureState)
    (recordKey envelopeCbor : Bytes) (currentState : Option MultisignatureState)
    (legacyEnvelopeCbor : Option Bytes) : Py MultisignatureState := do
  let parsed ← decodeMultisignatureCandidate rt envelopeCbor
  match parsed.authorization.operation with
  | .genesis =>
    raiseIf (currentState.isSome ∨ legacyEnvelopeCbor.isSome)
      (valueError "genesis cannot extend an existing state")
    validateMultisignatureGenesis rt recordKey envelopeCbor
  | .upgrade =>
    match legacyEnvelopeCbor, currentState with
    | some legacy, none => validateMultisignatureUpgrade rt recordKey envelopeCbor legacy
    | _, _ => throw (valueError "current multisignature state or legacy owner state is required")
  | .ownerKeyRotation =>
    match currentState, legacyEnvelopeCbor with
    | none, none =>
      throw (valueError "verified predecessor state is required for owner-key rotation")
    | none, some legacy => validateOwnerRotationFromLegacy rt recordKey envelopeCbor legacy
    | some _, some _ =>
      throw (valueError "legacy state cannot accompany a multisignature predecessor")
    | some state, none => rotateFromState state
  | .ordinaryUpdate =>
    match currentState, legacyEnvelopeCbor with
    | none, _ => throw (valueError "current multisignature state is required")
    | some _, some _ =>
      throw (valueError "legacy state is only valid for an upgrade or owner rotation")
    | some state, none => validateMultisignatureOrdinaryUpdate rt recordKey envelopeCbor state
  | .replaceSigners =>
    match currentState, legacyEnvelopeCbor with
    | none, _ => throw (valueError "current multisignature state is required")
    | some _, some _ =>
      throw (valueError "legacy state is only valid for an upgrade or owner rotation")
    | some state, none => validateMultisignatureSignerReplacement rt recordKey envelopeCbor state

/-! ## Replay -/

/-- Where a replay stands: at the legacy anchor, or at a multisignature state. -/
inductive ReplayState
  | legacyAnchor (envelopeCbor : Bytes)
  | state (s : MultisignatureState)

/-- The head of `validate_multisignature_history`: the anchor. -/
def replayAnchor (recordKey first : Bytes) : Py ReplayState :=
  match decodeMultisignatureEnvelope rt first with
  | .error _ => do
    let legacy ← decodeLegacyState rt recordKey first
    raiseIf (legacy.recordKind ≠ .identity ∨ !legacy.isIdentityRecord)
      (valueError "history anchor is not a valid legacy Identity Record")
    return .legacyAnchor first
  | .ok firstMultisig => do
    let firstUpdate ← decodeMultisignatureSignedUpdate rt firstMultisig.signedUpdateBytes
    raiseIf (firstUpdate.authorization.recordKind ≠ .identity)
      (valueError "predecessor history is not an Identity Record")
    raiseIf (firstUpdate.authorization.operation ≠ .genesis)
      (valueError "predecessor history must begin at a signed anchor")
    return .state (← validateMultisignatureGenesis rt recordKey first)

/-- One round of the loop of `validate_multisignature_history`. -/
def replayStep (recordKey : Bytes) (at_ : ReplayState) (envelopeCbor : Bytes) :
    Py ReplayState := do
  let parsed ← decodeMultisignatureCandidate rt envelopeCbor
  match at_ with
  | .legacyAnchor anchor =>
    match parsed.authorization.operation with
    | .upgrade => return .state (← validateMultisignatureUpgrade rt recordKey envelopeCbor anchor)
    | .ownerKeyRotation =>
      return .state (← validateOwnerRotationFromLegacy rt recordKey envelopeCbor anchor)
    | _ => throw (valueError "legacy anchor must be followed by upgrade or rotation")
  | .state s =>
    if parsed.authorization.operation = .ownerKeyRotation then
      return .state (← validateOwnerRotationFromState rt recordKey envelopeCbor s none)
    else
      return .state (← validateMultisignatureUpdateWith rt (fun _ => throw (valueError ""))
        recordKey envelopeCbor (some s) none)

/-- `validate_multisignature_history`. -/
def validateMultisignatureHistory (recordKey : Bytes) (envelopes : List Bytes) :
    Py MultisignatureState :=
  match envelopes with
  | [] => throw (valueError "complete predecessor history is required")
  | first :: rest => do
    let anchor ← replayAnchor rt recordKey first
    match ← rest.foldlM (replayStep rt recordKey) anchor with
    | .legacyAnchor _ =>
      throw (valueError "predecessor history must include a multisignature state")
    | .state s =>
      raiseIf (s.history ≠ some envelopes)
        (valueError "predecessor history is incomplete or inconsistent")
      return s

/-- `validate_multisignature_update`: a rotation from a multisignature state first replays that
state's history. -/
def validateMultisignatureUpdate (recordKey envelopeCbor : Bytes)
    (currentState : Option MultisignatureState) (legacyEnvelopeCbor : Option Bytes) :
    Py MultisignatureState :=
  validateMultisignatureUpdateWith rt
    (fun s => validateOwnerRotationFromState rt recordKey envelopeCbor s
      (some (validateMultisignatureHistory rt recordKey)))
    recordKey envelopeCbor currentState legacyEnvelopeCbor

/-! ## Standalone envelopes -/

/-- `validate_multisignature_envelope`. -/
def validateMultisignatureEnvelope (recordKey envelopeCbor : Bytes) : Py MultisignatureState := do
  let parsed ← decodeMultisignatureCandidate rt envelopeCbor
  let authorization := parsed.authorization
  raiseIf (parsed.derivedRecordKey ≠ recordKey) (valueError "lookup-key mismatch")
  match authorization.operation with
  | .genesis => validateMultisignatureGenesis rt recordKey envelopeCbor
  | operation =>
    raiseIf (authorization.recordKind = .identity ∧ operation ≠ .ownerKeyRotation)
      (valueError "complete predecessor history is required for Identity state")
    match operation with
    | .upgrade =>
      raiseIf (authorization.epoch ≠ 1) (valueError "upgrade epoch must be 1")
      requireComplete2of3 authorization
      let proof ← onlyProof parsed.envelope "upgrade requires one legacy owner proof"
      let ownerPublicKey ← ownerPublicKeyField authorization.recordKind parsed.recordFields
      let expectedSignerId ← signerIdForPublicKey authorization ownerPublicKey
      raiseIf (proof.signerId ≠ some expectedSignerId)
        (valueError "legacy owner proof signer_id mismatch")
      requireValidProof rt ownerPublicKey parsed.signedUpdateBytes proof.signature
        "invalid legacy owner proof"
      candidateState rt recordKey parsed none
    | .ownerKeyRotation =>
      throw (valueError "complete predecessor history is required for owner rotation")
    | _ =>
      validateThresholdProofs rt parsed.signedUpdateBytes parsed.envelope authorization.signerSet
        authorization.threshold
      candidateState rt recordKey parsed none

end DecentRegistry
