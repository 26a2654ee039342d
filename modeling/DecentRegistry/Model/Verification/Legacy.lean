import DecentRegistry.Model.SignedEnvelope
import Mathlib.Logic.Function.Basic

/-!
# Legacy updates

The single-key half of `verification.py`. A legacy SignedUpdate is read as an Identity record when
its record fields 1 and 2 are byte strings, and as a Provider record otherwise
(`validateSignedUpdateOverwrite`); its lookup key and Owner Public Key follow from that reading.
`SeqState` is the mutable map of accepted sequence numbers, and `Checked` the computations that may
change it: a computation that raises keeps the changes made before it raised.
-/

namespace DecentRegistry

open Fallible PyValue

/-- `SeqStateEntry`. -/
structure SeqStateEntry where
  ownerPublicKey : Bytes
  seq : ℕ
  deriving DecidableEq

/-- The accepted sequence number and owner of each record key. -/
abbrev SeqState := Bytes → Option SeqStateEntry

/-- Computations over a mutable `SeqState`. -/
abbrev Checked (α : Type) := ExceptT PyError (StateM SeqState) α

/-- The result of a computation from a given state. -/
def Checked.result {α : Type} (x : Checked α) (seqState : SeqState) : Py α := (x.run seqState).1

/-- A computation that does not touch the state. -/
def Checked.lift {α : Type} (x : Py α) : Checked α := fun seqState => (x, seqState)

variable (rt : Runtime)

/-- `verify_ed25519_signature`: the message is the SHA-256 digest of the SignedUpdate. -/
def verifyEd25519Signature (ownerPublicKey signedUpdateBytes signature : Bytes) : Py Bool :=
  rt.ed25519Verify ownerPublicKey (rt.sha256 signedUpdateBytes) signature

/-- `_extract_identity_and_keys`: lookup key and Owner Public Key of an Identity record. -/
def extractIdentityAndKeys (recordFields : Dict) : Py (Bytes × Bytes) :=
  match (recordFields.get? 1).bind Value.asBytes?, (recordFields.get? 2).bind Value.asBytes? with
  | some ownerName, some ownerPublicKey => return (rt.sha256 ownerName, ownerPublicKey)
  | _, _ => throw (valueError "not an identity record")

/-- `_extract_provider_and_keys`: lookup key and Owner Public Key of a Provider record. -/
def extractProviderAndKeys (recordFields payload : Dict) : Py (Bytes × Bytes) := do
  let ownerPublicKey ← orRaise ((recordFields.get? 1).bind Value.asBytes?)
    (valueError "not a provider record")
  let providerPayload ← rewrap (decodeProviderPayloadDict payload)
    (valueError "invalid provider payload")
  raiseIf (providerPayload.objectHash.length ≠ 64) (valueError "object_hash must be 64 hex chars")
  let derivedRecordKey ← rewrap (fromHex providerPayload.objectHash)
    (valueError "object_hash must be valid hex")
  return (derivedRecordKey, ownerPublicKey)

/-- `_decode_signed_update_strict`. -/
def decodeSignedUpdateStrict (signedUpdateBytes : Bytes) : Py SignedUpdate := do
  let signedUpdate ← decodeCanonicalSignedUpdate rt signedUpdateBytes
  raiseIf signedUpdate.authorization.isSome (valueError "SignedUpdate must have keys {1,2,3}")
  return signedUpdate

/-- `_enforce_seq_and_owner_binding`. -/
def enforceSeqAndOwnerBinding (recordKey : Bytes) (seq : ℕ) (ownerPublicKey : Bytes)
    (updateStateOnSuccess : Bool) : Checked Unit := do
  let seqState ← get
  match seqState recordKey with
  | none =>
    if updateStateOnSuccess then
      set (Function.update seqState recordKey (some { ownerPublicKey, seq }))
  | some prev =>
    Checked.lift (raiseIf (seq ≤ prev.seq) (valueError "seq must be strictly increasing"))
    Checked.lift (raiseIf (ownerPublicKey ≠ prev.ownerPublicKey) (valueError "owner collision"))
    if updateStateOnSuccess then
      set (Function.update seqState recordKey (some { ownerPublicKey := prev.ownerPublicKey, seq }))

/-- What `validate_provider_update` and `validate_identity_update` share: the two differ only in
how they read the lookup key and the owner. -/
def validateUpdate (extract : SignedUpdate → Py (Bytes × Bytes)) (recordKey signedUpdateBytes
    signature : Bytes) (updateStateOnSuccess : Bool) : Checked SignedUpdate := do
  let signedUpdate ← Checked.lift (decodeSignedUpdateStrict rt signedUpdateBytes)
  let (derivedRecordKey, ownerPublicKey) ← Checked.lift (extract signedUpdate)
  Checked.lift (raiseIf (derivedRecordKey ≠ recordKey) (valueError "lookup-key mismatch"))
  let valid ← Checked.lift (verifyEd25519Signature rt ownerPublicKey signedUpdateBytes signature)
  Checked.lift (raiseIf (!valid) (valueError "wrong signature"))
  enforceSeqAndOwnerBinding recordKey signedUpdate.seq ownerPublicKey updateStateOnSuccess
  return signedUpdate

/-- `validate_provider_update`. -/
def validateProviderUpdate (recordKey signedUpdateBytes signature : Bytes)
    (updateStateOnSuccess : Bool) : Checked SignedUpdate :=
  validateUpdate rt (fun u => extractProviderAndKeys u.recordFields u.payload)
    recordKey signedUpdateBytes signature updateStateOnSuccess

/-- `validate_identity_update`. -/
def validateIdentityUpdate (recordKey signedUpdateBytes signature : Bytes)
    (updateStateOnSuccess : Bool) : Checked SignedUpdate :=
  validateUpdate rt (fun u => extractIdentityAndKeys rt u.recordFields)
    recordKey signedUpdateBytes signature updateStateOnSuccess

/-- `validate_signed_update_overwrite`: Identity if the record fields read as one, else Provider. -/
def validateSignedUpdateOverwrite (recordKey signedUpdateBytes signature : Bytes)
    (updateStateOnSuccess : Bool) : Checked SignedUpdate := do
  let signedUpdate ← Checked.lift (decodeSignedUpdateStrict rt signedUpdateBytes)
  match extractIdentityAndKeys rt signedUpdate.recordFields with
  | .ok _ => validateIdentityUpdate rt recordKey signedUpdateBytes signature updateStateOnSuccess
  | .error _ => validateProviderUpdate rt recordKey signedUpdateBytes signature updateStateOnSuccess

end DecentRegistry
