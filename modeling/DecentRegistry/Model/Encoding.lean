import DecentRegistry.Model.ProviderSchema

/-!
# SignedUpdates and their authorization map

`encoding.py`. A SignedUpdate is `{1: record_fields, 2: payload, 3: seq}`, or the same with key
`4: authorization`. Decoding demands canonical bytes (`isCanonicalCbor`), then checks the shape:
dictionary shapes by set equality on the keys, the authorization map field by field
(`validateAuthorizationMap`), and that the record fields are those of the record kind it names
(`validateRecordKindBinding`). Encoding runs the same checks, but sorts the signers itself.

The record kind and the operation are enumerations here; the wire codes are `RecordKind.code` and
`Operation.code`.
-/

namespace DecentRegistry

open Fallible PyValue

/-! ## The authorization map -/

/-- `RECORD_KIND_IDENTITY`, `RECORD_KIND_PROVIDER`. -/
inductive RecordKind
  | identity
  | provider
  deriving DecidableEq

/-- `OPERATION_GENESIS`, …, `OPERATION_OWNER_KEY_ROTATION`. -/
inductive Operation
  | genesis
  | ordinaryUpdate
  | replaceSigners
  | upgrade
  | ownerKeyRotation
  deriving DecidableEq

def RecordKind.code : RecordKind → ℕ
  | .identity => 1
  | .provider => 2

def RecordKind.ofCode? : ℕ → Option RecordKind
  | 1 => some .identity
  | 2 => some .provider
  | _ => none

def Operation.code : Operation → ℕ
  | .genesis => 1
  | .ordinaryUpdate => 2
  | .replaceSigners => 3
  | .upgrade => 4
  | .ownerKeyRotation => 5

def Operation.ofCode? : ℕ → Option Operation
  | 1 => some .genesis
  | 2 => some .ordinaryUpdate
  | 3 => some .replaceSigners
  | 4 => some .upgrade
  | 5 => some .ownerKeyRotation
  | _ => none

/-- `{1: signer_id, 2: public_key}`. -/
structure SignerEntry where
  signerId : Text
  publicKey : Bytes
  deriving DecidableEq

/-- The normalized authorization map: 1 scheme, 2 record kind, 3 operation, 4 epoch, 5 threshold,
6 signer set, 7 predecessor state hash. -/
structure Authorization where
  scheme : ℕ
  recordKind : RecordKind
  operation : Operation
  epoch : ℕ
  threshold : ℕ
  signerSet : List SignerEntry
  predecessorStateHash : Bytes
  deriving DecidableEq

/-- `_require_uint`. -/
def requireUint (value : Value) (name : String) : Py ℕ := do
  let i ← orRaise value.asInt? (typeError (name ++ " must be a non-negative integer"))
  raiseIf (i < 0) (typeError (name ++ " must be a non-negative integer"))
  return i.toNat

/-- `_signer_sort_key`. -/
def signerSortKey (entry : SignerEntry) : Bytes := utf8 entry.signerId

/-- The checks `_validate_signer_entries` makes on one entry by itself. -/
def readSignerEntry (entry : Value) : Py SignerEntry := do
  let map ← orRaise entry.asDict? (valueError "signer entry must be a map with keys {1,2}")
  raiseIf (!map.keysAre [1, 2]) (valueError "signer entry must be a map with keys {1,2}")
  let signerId ← orRaise (← getItem map 1).asText?
    (valueError "signer_id must be a non-empty text string")
  raiseIf signerId.isEmpty (valueError "signer_id must be a non-empty text string")
  raiseIf (256 < (utf8 signerId).length) (valueError "signer_id must be at most 256 UTF-8 bytes")
  let publicKey ← orRaise (← getItem map 2).asBytes? (typeError "signer public key must be bytes")
  raiseIf (publicKey.length ≠ 32) (valueError "signer public key must be exactly 32 bytes")
  return { signerId, publicKey }

/-- The loop of `_validate_signer_entries`; `seen_ids` and `seen_keys` are the identifiers and keys
of `normalized`. -/
def readSignerEntries : List Value → List SignerEntry → Py (List SignerEntry)
  | [], normalized => return normalized
  | entry :: rest, normalized => do
    let signer ← readSignerEntry entry
    raiseIf (signer.signerId ∈ normalized.map (·.signerId))
      (valueError "duplicate signer identifier")
    raiseIf (signer.publicKey ∈ normalized.map (·.publicKey)) (valueError "duplicate public key")
    readSignerEntries rest (normalized ++ [signer])

/-- `_validate_signer_entries`. -/
def validateSignerEntries (entries : Value) (sortEntries requireSorted : Bool) :
    Py (List SignerEntry) := do
  let list ← orRaise entries.asList? (valueError "signer_set must be a non-empty list")
  raiseIf list.isEmpty (valueError "signer_set must be a non-empty list")
  let normalized ← readSignerEntries list []
  let ordered := sortedBy signerSortKey normalized
  raiseIf (requireSorted = true ∧ normalized ≠ ordered)
    (valueError "signer entries must be canonically ordered")
  return if sortEntries then ordered else normalized

/-- `validate_authorization_map`. -/
def validateAuthorizationMap (authorization : Value) (sortSigners : Bool) : Py Authorization := do
  let map ← orRaise authorization.asDict? (typeError "authorization must be a CBOR map")
  raiseIf (!map.keysAre [1, 2, 3, 4, 5, 6, 7])
    (valueError "authorization must contain keys {1,2,3,4,5,6,7}")
  let scheme ← requireUint (← getItem map 1) "authorization scheme"
  raiseIf (scheme ≠ 1) (valueError s!"unsupported authorization scheme: {scheme}")
  let kindCode ← requireUint (← getItem map 2) "record_kind"
  let recordKind ← orRaise (RecordKind.ofCode? kindCode)
    (valueError s!"unsupported record_kind: {kindCode}")
  let operationCode ← requireUint (← getItem map 3) "operation"
  let operation ← orRaise (Operation.ofCode? operationCode)
    (valueError s!"unsupported operation: {operationCode}")
  let epoch ← requireUint (← getItem map 4) "epoch"
  let threshold ← requireUint (← getItem map 5) "threshold"
  let signerSet ← validateSignerEntries (← getItem map 6) sortSigners (!sortSigners)
  raiseIf (threshold < 1 ∨ signerSet.length < threshold)
    (valueError "threshold must be between 1 and the signer-set size")
  let predecessorStateHash ← orRaise (← getItem map 7).asBytes?
    (typeError "predecessor_state_hash must be bytes")
  raiseIf (predecessorStateHash.length ≠ 32)
    (valueError "predecessor_state_hash must be exactly 32 bytes")
  return { scheme, recordKind, operation, epoch, threshold, signerSet, predecessorStateHash }

/-! ## SignedUpdates -/

/-- A decoded SignedUpdate. -/
structure SignedUpdate where
  recordFields : Dict
  payload : Dict
  seq : ℕ
  authorization : Option Authorization

/-- A decoded SignedUpdate that carries an authorization map. -/
structure MultisignatureUpdate where
  recordFields : Dict
  payload : Dict
  seq : ℕ
  authorization : Authorization

/-- `is_canonical_cbor`. -/
def isCanonicalCbor (rt : Runtime) (data : Bytes) : Bool :=
  match rt.loads data with
  | none => false
  | some decoded => rt.dumps decoded = some data

/-- `cbor2.loads(data)`. -/
def loads (rt : Runtime) (data : Bytes) : Py Value := orRaise (rt.loads data) ⟨.external, ""⟩

/-- A non-negative `int` that is not a `bool`. -/
def isUint : Atom → Bool
  | .int i => 0 ≤ i
  | _ => false

/-- `_validate_uint_keys`. -/
def validateUintKeys (m : Dict) (name : String) : Py Unit :=
  raiseIf (m.any fun e => !isUint e.1) (typeError (name ++ " keys must be non-negative ints"))

/-- `_validate_record_kind_binding`. -/
def validateRecordKindBinding (recordFields payload : Dict) : RecordKind → Py Unit
  | .identity => do
    raiseIf (!recordFields.keysAre [1, 2] || !payload.isEmpty)
      (valueError "record_kind identity does not match SignedUpdate")
    let _ ← orRaise (← getItem recordFields 1).asBytes?
      (valueError "identity owner_name must be bytes")
    let ownerPublicKey ← orRaise (← getItem recordFields 2).asBytes?
      (valueError "identity owner public key must be bytes")
    raiseIf (ownerPublicKey.length ≠ 32)
      (valueError "identity owner public key must be exactly 32 bytes")
  | .provider => do
    raiseIf (!recordFields.keysAre [1])
      (valueError "record_kind provider does not match SignedUpdate")
    let ownerPublicKey ← orRaise (← getItem recordFields 1).asBytes?
      (valueError "provider owner public key must be bytes")
    raiseIf (ownerPublicKey.length ≠ 32)
      (valueError "provider owner public key must be exactly 32 bytes")
    let _ ← rewrap (decodeProviderPayloadDict payload)
      (valueError "record_kind provider does not match SignedUpdate")

/-- `_validate_decoded_signed_update`. -/
def validateDecodedSignedUpdate (decoded : Dict) : Py SignedUpdate := do
  raiseIf (!decoded.keysAre [1, 2, 3] && !decoded.keysAre [1, 2, 3, 4])
    (valueError "SignedUpdate must have keys {1,2,3} or {1,2,3,4}")
  let recordFields ← orRaise (← getItem decoded 1).asDict?
    (valueError "SignedUpdate record_fields and payload must be CBOR maps")
  let payload ← orRaise (← getItem decoded 2).asDict?
    (valueError "SignedUpdate record_fields and payload must be CBOR maps")
  validateUintKeys recordFields "record_fields"
  validateUintKeys payload "payload"
  let seq ← requireUint (← getItem decoded 3) "seq"
  match decoded.get? 4 with
  | none => return { recordFields, payload, seq, authorization := none }
  | some value =>
    let authorization ← validateAuthorizationMap value false
    validateRecordKindBinding recordFields payload authorization.recordKind
    return { recordFields, payload, seq, authorization := some authorization }

variable (rt : Runtime)

/-- `decode_canonical_signed_update`. -/
def decodeCanonicalSignedUpdate (data : Bytes) : Py SignedUpdate := do
  raiseIf (!isCanonicalCbor rt data) (valueError "non-canonical or invalid CBOR")
  let decoded ← loads rt data
  let map ← orRaise decoded.asDict? (valueError "SignedUpdate must be a CBOR map")
  validateDecodedSignedUpdate map

/-- `decode_multisignature_signed_update`. -/
def decodeMultisignatureSignedUpdate (data : Bytes) : Py MultisignatureUpdate := do
  let decoded ← decodeCanonicalSignedUpdate rt data
  let authorization ← orRaise decoded.authorization
    (valueError "multisignature SignedUpdate requires authorization key 4")
  return { recordFields := decoded.recordFields, payload := decoded.payload, seq := decoded.seq,
           authorization }

/-! ## Encoding -/

/-- `canonical_cbor`. -/
def canonicalCbor (value : Value) : Py Bytes := orRaise (rt.dumps value) ⟨.external, ""⟩

def natValue (n : ℕ) : Value := .atom (.int n)

def SignerEntry.toValue (entry : SignerEntry) : Value :=
  .dict [(.int 1, .atom (.text entry.signerId)), (.int 2, .atom (.bytes entry.publicKey))]

/-- The authorization map as a dictionary. -/
def Authorization.toValue (a : Authorization) : Value :=
  .dict [(.int 1, natValue a.scheme), (.int 2, natValue a.recordKind.code),
    (.int 3, natValue a.operation.code), (.int 4, natValue a.epoch),
    (.int 5, natValue a.threshold), (.int 6, .list (a.signerSet.map SignerEntry.toValue)),
    (.int 7, .atom (.bytes a.predecessorStateHash))]

/-- `encode_signed_update`. -/
def encodeSignedUpdate (recordFields payload : Dict) (seq : Value) (authorization : Option Value) :
    Py Bytes := do
  let seq ← requireUint seq "seq"
  validateUintKeys recordFields "record_fields"
  validateUintKeys payload "payload"
  let signedUpdate : Dict := [(.int 1, .dict recordFields), (.int 2, .dict payload),
    (.int 3, natValue seq)]
  match authorization with
  | none => canonicalCbor rt (.dict signedUpdate)
  | some value =>
    let normalizedAuth ← validateAuthorizationMap value true
    validateRecordKindBinding recordFields payload normalizedAuth.recordKind
    canonicalCbor rt (.dict (signedUpdate ++ [(.int 4, normalizedAuth.toValue)]))

/-- `encode_multisignature_signed_update`. -/
def encodeMultisignatureSignedUpdate (recordFields payload : Dict) (seq : Value)
    (authorization : Value) : Py Bytes :=
  encodeSignedUpdate rt recordFields payload seq (some authorization)

end DecentRegistry
