import DecentRegistry.Model.Verification.Multisignature

/-!
# The record validator

`record_validator.py`: validation of a candidate envelope against the existing one
(`validateProviderOverwrite`, `validateIdentityOverwrite`) and of an envelope that is read
(`validateProviderGet`, `validateIdentityGet`), for legacy and multisignature envelopes. A
multisignature candidate goes through `validateMultisignatureTransition`, which first recovers the
current state from the existing envelope: by replaying a predecessor chain when one is given, and
otherwise from the envelope alone.
-/

namespace DecentRegistry

open Fallible PyValue

/-! ## Results -/

/-- `AuthorizationMetadata`; its version is 1. -/
structure AuthorizationMetadata where
  operation : Operation
  epoch : ℕ
  threshold : ℕ
  signerSet : List SignerEntry
  predecessorStateHash : Bytes
  stateHash : Bytes
  deriving DecidableEq

structure ProviderWithdrawnResult where
  objectHash : Text
  seq : ℕ
  replacementObjectHash : Option Text
  authorization : Option AuthorizationMetadata
  predecessorEnvelopeCbor : Option Bytes
  deriving DecidableEq

structure ProviderRecordResult where
  payload : ProviderPayloadV3
  seq : ℕ
  authorization : AuthorizationMetadata
  deriving DecidableEq

structure IdentityRecordResult where
  recordKey : Bytes
  ownerPublicKey : Bytes
  ownerName : Bytes
  seq : ℕ
  authorization : AuthorizationMetadata
  deriving DecidableEq

structure ProviderOverwriteResult where
  recordKey : Bytes
  objectHash : Text
  ownerPublicKey : Bytes
  seq : ℕ
  authorization : Option AuthorizationMetadata
  state : Option MultisignatureState
  deriving DecidableEq

structure IdentityOverwriteResult where
  recordKey : Bytes
  ownerPublicKey : Bytes
  ownerName : Bytes
  seq : ℕ
  authorization : Option AuthorizationMetadata
  state : Option MultisignatureState
  deriving DecidableEq

/-- What `validate_provider_overwrite` returns. -/
inductive ProviderWrite
  | overwrite (r : ProviderOverwriteResult)
  | withdrawn (r : ProviderWithdrawnResult)
  deriving DecidableEq

/-- What `validate_provider_get` returns: the payload of a legacy record, a withdrawal, or a
multisignature record. -/
inductive ProviderRead
  | payload (p : ProviderPayloadV3)
  | withdrawn (r : ProviderWithdrawnResult)
  | record (r : ProviderRecordResult)
  deriving DecidableEq

/-- What `validate_identity_get` returns: a legacy or a multisignature record. -/
inductive IdentityRead
  | legacy (r : IdentityOverwriteResult)
  | record (r : IdentityRecordResult)
  deriving DecidableEq

variable (rt : Runtime)

/-- `AuthorizationMetadata.from_state`. -/
def authorizationMetadata (state : MultisignatureState) : Py AuthorizationMetadata := do
  let signedUpdate ← decodeMultisignatureSignedUpdate rt state.signedUpdateBytes
  let authorization := signedUpdate.authorization
  return { operation := authorization.operation, epoch := authorization.epoch,
           threshold := authorization.threshold, signerSet := state.signerSet,
           predecessorStateHash := authorization.predecessorStateHash,
           stateHash := state.stateHash }

/-! ## The previous legacy state -/

/-- `_extract_provider_prev_seq_state` and `_extract_identity_prev_seq_state`: owner and sequence
number of a legacy envelope, the owner read from `field`; `none` when they cannot be read. -/
def extractPrevSeqState (field : Int) (existingEnvelopeCbor : Bytes) : Option SeqStateEntry :=
  match decodeSignedEnvelope rt existingEnvelopeCbor with
  | .error _ => none
  | .ok (existingSignedUpdateBytes, _) =>
    match decodeCanonicalSignedUpdate rt existingSignedUpdateBytes with
    | .error _ => none
    | .ok existingSignedUpdate =>
      ((existingSignedUpdate.recordFields.get? field).bind Value.asBytes?).map
        fun ownerPublicKey => { ownerPublicKey, seq := existingSignedUpdate.seq }

/-- `_extract_provider_prev_seq_state`. -/
def extractProviderPrevSeqState (existingEnvelopeCbor : Bytes) : Option SeqStateEntry :=
  extractPrevSeqState rt 1 existingEnvelopeCbor

/-- `_extract_identity_prev_seq_state`. -/
def extractIdentityPrevSeqState (existingEnvelopeCbor : Bytes) : Option SeqStateEntry :=
  extractPrevSeqState rt 2 existingEnvelopeCbor

/-- A `SeqState` that knows at most the given key. -/
def seqStateOf (recordKey : Bytes) (prev : Option SeqStateEntry) : SeqState :=
  fun key => if key = recordKey then prev else none

/-! ## Multisignature transitions -/

/-- `_require_history_ending_at`. -/
def requireHistoryEndingAt (predecessorChain : List Bytes) (envelopeCbor : Bytes)
    (stateLabel : String) : Py Unit :=
  raiseIf (predecessorChain.getLast? ≠ some envelopeCbor)
    (valueError s!"predecessor history does not end at {stateLabel}")

/-- The current state of `_validate_multisignature_transition` when the existing envelope is a
multisignature one. -/
def currentMultisignatureState (recordKey existing : Bytes) (candidate : Authorization)
    (predecessorChain : Option (List Bytes)) : Py MultisignatureState := do
  match predecessorChain with
  | some chain =>
    requireHistoryEndingAt chain existing "current state"
    validateMultisignatureHistory rt recordKey chain
  | none =>
    raiseIf (candidate.operation = .ownerKeyRotation)
      (valueError "complete predecessor history is required for owner rotation")
    let state ← validateMultisignatureEnvelope rt recordKey existing
    raiseIf (candidate.recordKind = .identity ∧ state.history = none)
      (valueError "complete predecessor history is required for Identity state")
    return state

/-- The checks of `_validate_multisignature_transition` on a legacy existing envelope when the
candidate is a withdrawal. -/
def checkLegacyActivePredecessor (existing : Bytes) (candidate : MultisignatureUpdate) :
    Py Unit := do
  let (existingUpdateBytes, existingSignature) ← decodeSignedEnvelope rt existing
  let existingUpdate ← decodeCanonicalSignedUpdate rt existingUpdateBytes
  let existingPayload ← decodeProviderPayloadDict existingUpdate.payload
  let existingOwner ← toBytes (← getItem existingUpdate.recordFields 1)
  let candidateOwner ← toBytes (← getItem candidate.recordFields 1)
  let valid ← verifyEd25519Signature rt existingOwner existingUpdateBytes existingSignature
  raiseIf (!valid) (valueError "invalid active predecessor signature")
  raiseIf (existingOwner ≠ candidateOwner) (valueError "owner collision")
  raiseIf existingPayload.isWithdrawn alreadyWithdrawn

/-- The candidate's payload is a withdrawal. -/
def withdraws (candidate : MultisignatureUpdate) : Py Bool := do
  if candidate.authorization.recordKind = .provider then
    return (← decodeProviderPayloadDict candidate.payload).isWithdrawn
  else return false

/-- `_validate_multisignature_transition`. -/
def validateMultisignatureTransition (recordKey envelopeCbor : Bytes)
    (existingEnvelopeCbor : Option Bytes) (predecessorChain : Option (List Bytes)) :
    Py MultisignatureState := do
  let candidate ← decodeMultisignatureEnvelope rt envelopeCbor
  let candidateUpdate ← decodeMultisignatureSignedUpdate rt candidate.signedUpdateBytes
  let isWithdrawal ← withdraws candidateUpdate
  raiseIf (isWithdrawal ∧ existingEnvelopeCbor = none)
    (valueError "a Provider withdrawal requires an active predecessor state")
  let (currentState, legacyEnvelopeCbor) ←
    (match existingEnvelopeCbor with
    | none => return (none, none)
    | some existing =>
      if isMultisignatureEnvelope rt existing then do
        let state ← currentMultisignatureState rt recordKey existing
          candidateUpdate.authorization predecessorChain
        return (some state, none)
      else do
        if isWithdrawal then checkLegacyActivePredecessor rt existing candidateUpdate
        return (none, some existing) : Py (Option MultisignatureState × Option Bytes))
  let state ← validateMultisignatureUpdate rt recordKey envelopeCbor currentState legacyEnvelopeCbor
  if isWithdrawal then
    let current ← orRaise (currentState.filter fun s => s.recordKind = .provider)
      (valueError "a Provider withdrawal requires a valid active predecessor")
    let currentUpdate ← decodeMultisignatureSignedUpdate rt current.signedUpdateBytes
    let currentPayload ← decodeProviderPayloadDict currentUpdate.payload
    raiseIf currentPayload.isWithdrawn alreadyWithdrawn
  return state

/-! ## Provider records -/

/-- The multisignature branch of `validate_provider_overwrite`. -/
def validateMultisignatureProviderOverwrite (recordKey envelopeCbor : Bytes)
    (existingEnvelopeCbor : Option Bytes) : Py ProviderWrite := do
  let state ← validateMultisignatureTransition rt recordKey envelopeCbor existingEnvelopeCbor none
  let signedUpdate ← decodeMultisignatureSignedUpdate rt state.signedUpdateBytes
  match ← decodeProviderPayloadDict signedUpdate.payload with
  | .withdrawn payload =>
    let existing ← orRaise existingEnvelopeCbor
      (valueError "a Provider withdrawal requires an active predecessor state")
    let current ← decodeMultisignatureEnvelope rt existing
    let currentUpdate ← decodeMultisignatureSignedUpdate rt current.signedUpdateBytes
    let currentPayload ← decodeProviderPayloadDict currentUpdate.payload
    raiseIf currentPayload.isWithdrawn alreadyWithdrawn
    let currentOwner ← toBytes (← getItem currentUpdate.recordFields 1)
    let proposedOwner ← toBytes (← getItem signedUpdate.recordFields 1)
    raiseIf (currentOwner ≠ proposedOwner) (valueError "owner binding mismatch")
    raiseIf (signedUpdate.seq ≤ currentUpdate.seq) (valueError "seq must be strictly increasing")
    let authorization ← authorizationMetadata rt state
    return .withdrawn
      { objectHash := payload.objectHash, seq := signedUpdate.seq,
        replacementObjectHash := payload.replacementObjectHash,
        authorization := some authorization, predecessorEnvelopeCbor := some existing }
  | .active payload =>
    let ownerPublicKey ← toBytes (← getItem signedUpdate.recordFields 1)
    let authorization ← authorizationMetadata rt state
    return .overwrite
      { recordKey, objectHash := payload.objectHash, ownerPublicKey, seq := signedUpdate.seq,
        authorization := some authorization, state := some state }

/-- The checks of `validate_provider_overwrite` on a legacy withdrawal whose existing envelope is a
multisignature one. -/
def checkMultisignaturePredecessorOfLegacy (recordKey existing ownerPublicKey : Bytes) (seq : ℕ) :
    Py Unit := do
  let existingState ← validateMultisignatureEnvelope rt recordKey existing
  raiseIf (existingState.ownerPublicKey ≠ ownerPublicKey) (valueError "owner binding mismatch")
  let existingUpdate ← decodeMultisignatureSignedUpdate rt existingState.signedUpdateBytes
  let existingPayload ← decodeProviderPayloadDict existingUpdate.payload
  raiseIf existingPayload.isWithdrawn alreadyWithdrawn
  raiseIf (seq ≤ existingState.seq) (valueError "seq must be strictly increasing")

/-- The checks of `validate_provider_overwrite` on a legacy withdrawal whose existing envelope is a
legacy one. -/
def checkLegacyPredecessorOfLegacy (existing ownerPublicKey : Bytes) (seq : ℕ)
    (payload : ProviderWithdrawnPayloadV2) : Py Unit := do
  let (existingUpdateBytes, existingSignature) ← decodeSignedEnvelope rt existing
  let existingUpdate ← decodeCanonicalSignedUpdate rt existingUpdateBytes
  let existingOwner ← toBytes (← getItem existingUpdate.recordFields 1)
  let valid ← verifyEd25519Signature rt existingOwner existingUpdateBytes existingSignature
  raiseIf (valid = false ∨ existingOwner ≠ ownerPublicKey)
    (valueError "invalid or mismatched active predecessor owner")
  match ← decodeProviderPayloadDict existingUpdate.payload with
  | .withdrawn _ => throw alreadyWithdrawn
  | .active existingPayload =>
    raiseIf (existingPayload.objectHash ≠ payload.objectHash)
      (valueError "active predecessor Object Hash does not match")
    raiseIf (seq ≤ existingUpdate.seq) (valueError "seq must be strictly increasing")

/-- The legacy branch of `validate_provider_overwrite`. -/
def validateLegacyProviderOverwrite (recordKey envelopeCbor : Bytes)
    (existingEnvelopeCbor : Option Bytes) : Py ProviderWrite := do
  raiseIf (∃ existing ∈ existingEnvelopeCbor, isMultisignatureEnvelope rt existing)
    (valueError "legacy writes are rejected after multisignature upgrade")
  let seqState := seqStateOf recordKey (existingEnvelopeCbor.bind (extractProviderPrevSeqState rt))
  let (signedUpdateBytes, signature) ← decodeSignedEnvelope rt envelopeCbor
  let _ ← (validateSignedUpdateOverwrite rt recordKey signedUpdateBytes signature false).result
    seqState
  let signedUpdate ← decodeCanonicalSignedUpdate rt signedUpdateBytes
  let ownerField ← orRaise (signedUpdate.recordFields.get? 1)
    (valueError "unrecognized provider record_fields")
  let ownerPublicKey ← orRaise ownerField.asBytes?
    (valueError "provider owner_public_key must be bytes")
  match ← decodeProviderPayloadDict signedUpdate.payload with
  | .withdrawn payload =>
    let existing ← orRaise existingEnvelopeCbor
      (valueError "a Provider withdrawal requires an active predecessor state")
    if isMultisignatureEnvelope rt existing then
      checkMultisignaturePredecessorOfLegacy rt recordKey existing ownerPublicKey signedUpdate.seq
    else checkLegacyPredecessorOfLegacy rt existing ownerPublicKey signedUpdate.seq payload
    raiseIf ((← fromHex payload.objectHash) ≠ recordKey) (valueError "lookup-key mismatch")
    return .withdrawn
      { objectHash := payload.objectHash, seq := signedUpdate.seq,
        replacementObjectHash := payload.replacementObjectHash, authorization := none,
        predecessorEnvelopeCbor := some existing }
  | .active payload =>
    return .overwrite
      { recordKey, objectHash := payload.objectHash, ownerPublicKey, seq := signedUpdate.seq,
        authorization := none, state := none }

/-- `validate_provider_overwrite`. -/
def validateProviderOverwrite (recordKey envelopeCbor : Bytes)
    (existingEnvelopeCbor : Option Bytes) : Py ProviderWrite :=
  if isMultisignatureEnvelope rt envelopeCbor then
    validateMultisignatureProviderOverwrite rt recordKey envelopeCbor existingEnvelopeCbor
  else validateLegacyProviderOverwrite rt recordKey envelopeCbor existingEnvelopeCbor

/-- `_validate_legacy_provider_withdrawal`. -/
def validateLegacyProviderWithdrawal (recordKey envelopeCbor existing : Bytes) :
    Py ProviderWithdrawnResult := do
  let (signedUpdateBytes, signature) ← decodeSignedEnvelope rt envelopeCbor
  let _ ← (validateSignedUpdateOverwrite rt recordKey signedUpdateBytes signature false).result
    fun _ => none
  let signedUpdate ← decodeCanonicalSignedUpdate rt signedUpdateBytes
  match ← decodeProviderPayloadDict signedUpdate.payload with
  | .active _ => throw (valueError "expected a Provider v2 tombstone")
  | .withdrawn payload =>
    let (existingUpdateBytes, existingSignature) ← decodeSignedEnvelope rt existing
    let existingUpdate ← decodeCanonicalSignedUpdate rt existingUpdateBytes
    let existingOwnerField ← orRaise (existingUpdate.recordFields.get? 1)
      (valueError "invalid active Provider predecessor")
    let existingOwner ← toBytes existingOwnerField
    let tombstoneOwner ← toBytes (← getItem signedUpdate.recordFields 1)
    match ← decodeProviderPayloadDict existingUpdate.payload with
    | .withdrawn _ => throw alreadyWithdrawn
    | .active existingPayload =>
      raiseIf (existingOwner ≠ tombstoneOwner)
        (valueError "withdrawal owner does not match active predecessor")
      let valid ← verifyEd25519Signature rt existingOwner existingUpdateBytes existingSignature
      raiseIf (!valid) (valueError "invalid active predecessor signature")
      raiseIf (existingPayload.objectHash ≠ payload.objectHash)
        (valueError "active predecessor Object Hash does not match")
      raiseIf ((← fromHex payload.objectHash) ≠ recordKey) (valueError "lookup-key mismatch")
      raiseIf (signedUpdate.seq ≤ existingUpdate.seq) (valueError "seq must be strictly increasing")
      return { objectHash := payload.objectHash, seq := signedUpdate.seq,
               replacementObjectHash := payload.replacementObjectHash, authorization := none,
               predecessorEnvelopeCbor := some existing }

/-- The multisignature branch of `validate_provider_get`. -/
def validateMultisignatureProviderGet (recordKey envelopeCbor : Bytes)
    (existingEnvelopeCbor : Option Bytes) : Py ProviderRead := do
  let envelope ← decodeMultisignatureEnvelope rt envelopeCbor
  let signedUpdate ← decodeMultisignatureSignedUpdate rt envelope.signedUpdateBytes
  match ← decodeProviderPayloadDict signedUpdate.payload with
  | .withdrawn payload =>
    let existing ← orRaise existingEnvelopeCbor
      (valueError "withdrawn Provider result requires a verified predecessor")
    let state ← validateMultisignatureTransition rt recordKey envelopeCbor (some existing) none
    let authorization ← authorizationMetadata rt state
    return .withdrawn
      { objectHash := payload.objectHash, seq := signedUpdate.seq,
        replacementObjectHash := payload.replacementObjectHash,
        authorization := some authorization, predecessorEnvelopeCbor := some existing }
  | .active payload =>
    let state ← validateMultisignatureEnvelope rt recordKey envelopeCbor
    let authorization ← authorizationMetadata rt state
    return .record { payload, seq := signedUpdate.seq, authorization }

/-- The legacy branch of `validate_provider_get`. -/
def validateLegacyProviderGet (recordKey envelopeCbor : Bytes)
    (existingEnvelopeCbor : Option Bytes) : Py ProviderRead := do
  let (signedUpdateBytes, signature) ← decodeSignedEnvelope rt envelopeCbor
  let signedUpdate ← decodeCanonicalSignedUpdate rt signedUpdateBytes
  match ← decodeProviderPayloadDict signedUpdate.payload with
  | .withdrawn _ =>
    let existing ← orRaise existingEnvelopeCbor
      (valueError "withdrawn Provider result requires a verified predecessor")
    return .withdrawn (← validateLegacyProviderWithdrawal rt recordKey envelopeCbor existing)
  | .active payload =>
    let _ ← (validateSignedUpdateOverwrite rt recordKey signedUpdateBytes signature false).result
      fun _ => none
    return .payload payload

/-- `validate_provider_get`. -/
def validateProviderGet (recordKey envelopeCbor : Bytes) (existingEnvelopeCbor : Option Bytes) :
    Py ProviderRead :=
  if isMultisignatureEnvelope rt envelopeCbor then
    validateMultisignatureProviderGet rt recordKey envelopeCbor existingEnvelopeCbor
  else validateLegacyProviderGet rt recordKey envelopeCbor existingEnvelopeCbor

/-! ## Identity records -/

/-- The legacy tail of `validate_identity_overwrite` and `validate_identity_get`. -/
def validateLegacyIdentity (recordKey envelopeCbor : Bytes) (seqState : SeqState) :
    Py IdentityOverwriteResult := do
  let (signedUpdateBytes, signature) ← decodeSignedEnvelope rt envelopeCbor
  let _ ← (validateSignedUpdateOverwrite rt recordKey signedUpdateBytes signature false).result
    seqState
  let signedUpdate ← decodeCanonicalSignedUpdate rt signedUpdateBytes
  let ownerName ← orRaise ((signedUpdate.recordFields.get? 1).bind Value.asBytes?)
    (valueError "identity owner_name must be bytes")
  let ownerPublicKey ← orRaise ((signedUpdate.recordFields.get? 2).bind Value.asBytes?)
    (valueError "identity owner_public_key must be bytes")
  return { recordKey, ownerPublicKey, ownerName, seq := signedUpdate.seq, authorization := none,
           state := none }

/-- `validate_identity_overwrite`. -/
def validateIdentityOverwrite (recordKey envelopeCbor : Bytes)
    (existingEnvelopeCbor : Option Bytes) (predecessorChain : Option (List Bytes)) :
    Py IdentityOverwriteResult := do
  if isMultisignatureEnvelope rt envelopeCbor then
    let state ← validateMultisignatureTransition rt recordKey envelopeCbor existingEnvelopeCbor
      predecessorChain
    let signedUpdate ← decodeMultisignatureSignedUpdate rt state.signedUpdateBytes
    let ownerName ← toBytes (← getItem signedUpdate.recordFields 1)
    let ownerPublicKey ← toBytes (← getItem signedUpdate.recordFields 2)
    let authorization ← authorizationMetadata rt state
    return { recordKey, ownerPublicKey, ownerName, seq := signedUpdate.seq,
             authorization := some authorization, state := some state }
  else
    raiseIf (∃ existing ∈ existingEnvelopeCbor, isMultisignatureEnvelope rt existing)
      (valueError "legacy writes are rejected after multisignature upgrade")
    validateLegacyIdentity rt recordKey envelopeCbor
      (seqStateOf recordKey (existingEnvelopeCbor.bind (extractIdentityPrevSeqState rt)))

/-- The state `validate_identity_get` reads a multisignature envelope as. -/
def readIdentityState (recordKey envelopeCbor : Bytes) (predecessorChain : Option (List Bytes)) :
    Py MultisignatureState := do
  match predecessorChain with
  | some chain =>
    requireHistoryEndingAt chain envelopeCbor "accepted state"
    validateMultisignatureHistory rt recordKey chain
  | none => validateMultisignatureEnvelope rt recordKey envelopeCbor

/-- `validate_identity_get`. -/
def validateIdentityGet (recordKey envelopeCbor : Bytes) (predecessorChain : Option (List Bytes)) :
    Py IdentityRead := do
  if isMultisignatureEnvelope rt envelopeCbor then
    let state ← readIdentityState rt recordKey envelopeCbor predecessorChain
    raiseIf (state.recordKind ≠ .identity) (valueError "expected an Identity Record")
    raiseIf (state.history = none)
      (valueError "complete predecessor history is required for Identity state")
    let signedUpdate ← decodeMultisignatureSignedUpdate rt state.signedUpdateBytes
    let ownerPublicKey ← toBytes (← getItem signedUpdate.recordFields 2)
    let ownerName ← toBytes (← getItem signedUpdate.recordFields 1)
    let authorization ← authorizationMetadata rt state
    return .record { recordKey, ownerPublicKey, ownerName, seq := signedUpdate.seq, authorization }
  else return .legacy (← validateLegacyIdentity rt recordKey envelopeCbor fun _ => none)

end DecentRegistry
