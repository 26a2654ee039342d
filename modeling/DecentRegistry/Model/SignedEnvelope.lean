import DecentRegistry.Model.Encoding

/-!
# Signed envelopes

`signed_envelope.py`. A legacy envelope is `{1: signed_update_bytes, 2: signature}`. A
multisignature envelope is `{1: version, 2: signed_update_bytes, 3: proofs}`, where a proof is
`{1: signer_id, 2: signature}` and the signer identifier may be null; proofs are ordered by the
UTF-8 bytes of the identifier, null first.
-/

namespace DecentRegistry

open Fallible PyValue

/-- `{1: signer_id, 2: signature}`. -/
structure Proof where
  signerId : Option Text
  signature : Bytes
  deriving DecidableEq

/-- `MultisignatureEnvelope`. -/
structure MultisignatureEnvelope where
  version : Int
  signedUpdateBytes : Bytes
  proofs : List Proof
  deriving DecidableEq

/-- `_proof_sort_key`. -/
def proofSortKey (proof : Proof) : Bytes :=
  match proof.signerId with
  | none => []
  | some signerId => utf8 signerId

/-- A proof's signer identifier: null, or a non-empty text of at most 256 bytes. -/
def readProofSignerId : Value → Py (Option Text)
  | .atom .none => return none
  | .atom (.text signerId) => do
    raiseIf signerId.isEmpty (valueError "proof signer_id must be a non-empty text string")
    raiseIf (256 < (utf8 signerId).length)
      (valueError "proof signer_id must be at most 256 UTF-8 bytes")
    return some signerId
  | _ => throw (valueError "proof signer_id must be a non-empty text string")

/-- The loop of `_validate_proofs`; `seen` is the identifiers of `normalized`. -/
def readProofs : List Value → List Proof → Py (List Proof)
  | [], normalized => return normalized
  | proof :: rest, normalized => do
    let map ← orRaise proof.asDict? (valueError "proof must be a map with keys {1,2}")
    raiseIf (!map.keysAre [1, 2]) (valueError "proof must be a map with keys {1,2}")
    let signerId ← readProofSignerId (← getItem map 1)
    raiseIf (signerId ∈ normalized.map (·.signerId))
      (valueError "duplicate proof signer identifier")
    let signature ← orRaise (← getItem map 2).asBytes? (typeError "proof signature must be bytes")
    raiseIf (signature.length ≠ 64) (valueError "proof signature must be exactly 64 bytes")
    readProofs rest (normalized ++ [{ signerId, signature }])

/-- `_validate_proofs`. -/
def validateProofs (proofs : Value) (sortProofs requireSorted : Bool) : Py (List Proof) := do
  let list ← orRaise proofs.asList? (typeError "proofs must be a CBOR array")
  let normalized ← readProofs list []
  let ordered := sortedBy proofSortKey normalized
  raiseIf (requireSorted = true ∧ normalized ≠ ordered)
    (valueError "proofs must be canonically ordered")
  return if sortProofs then ordered else normalized

variable (rt : Runtime)

/-! ## Legacy envelopes -/

/-- `encode_signed_envelope`. -/
def encodeSignedEnvelope (signedUpdateBytes signature : Bytes) : Py Bytes :=
  canonicalCbor rt (.dict [(.int 1, .atom (.bytes signedUpdateBytes)),
    (.int 2, .atom (.bytes signature))])

/-- `isinstance(nested_update, dict) and 4 in nested_update`, for what the bytes decode to. -/
def carriesAuthorization (signedUpdateBytes : Bytes) : Bool :=
  match rt.loads signedUpdateBytes with
  | some (.dict nested) => Dict.has nested 4
  | _ => false

/-- `decode_signed_envelope`. -/
def decodeSignedEnvelope (envelopeCbor : Bytes) : Py (Bytes × Bytes) := do
  raiseIf (!isCanonicalCbor rt envelopeCbor)
    (valueError "non-canonical or invalid signed envelope")
  let decoded ← loads rt envelopeCbor
  let map ← orRaise decoded.asDict? (valueError "signed envelope must be a CBOR map")
  raiseIf (!map.keysAre [1, 2]) (valueError "signed envelope must contain keys {1,2}")
  let signedUpdateBytes ← orRaise (← getItem map 1).asBytes?
    (valueError "signed_update_bytes must be bytes")
  let signature ← orRaise (← getItem map 2).asBytes? (valueError "signature must be bytes")
  raiseIf (carriesAuthorization rt signedUpdateBytes)
    (valueError "legacy envelope cannot carry multisignature SignedUpdate")
  return (signedUpdateBytes, signature)

/-! ## Multisignature envelopes -/

def Proof.toValue (proof : Proof) : Value :=
  .dict [(.int 1, .atom (match proof.signerId with | none => .none | some t => .text t)),
    (.int 2, .atom (.bytes proof.signature))]

/-- `encode_multisignature_envelope`, with the version it fixes and its default of sorting. -/
def encodeMultisignatureEnvelope (signedUpdateBytes : Bytes) (proofs : Value) : Py Bytes := do
  let _ ← decodeMultisignatureSignedUpdate rt signedUpdateBytes
  let normalizedProofs ← validateProofs proofs true false
  canonicalCbor rt (.dict [(.int 1, natValue 1), (.int 2, .atom (.bytes signedUpdateBytes)),
    (.int 3, .list (normalizedProofs.map Proof.toValue))])

/-- `decode_multisignature_envelope`. -/
def decodeMultisignatureEnvelope (envelopeCbor : Bytes) : Py MultisignatureEnvelope := do
  raiseIf (!isCanonicalCbor rt envelopeCbor)
    (valueError "non-canonical or invalid multisignature envelope")
  let decoded ← loads rt envelopeCbor
  let map ← orRaise decoded.asDict? (valueError "multisignature envelope must contain keys {1,2,3}")
  raiseIf (!map.keysAre [1, 2, 3])
    (valueError "multisignature envelope must contain keys {1,2,3}")
  let version ← orRaise (← getItem map 1).asInt? (valueError "envelope version must be an integer")
  raiseIf (version ≠ 1) (valueError s!"unsupported envelope version: {version}")
  let signedUpdateBytes ← orRaise (← getItem map 2).asBytes?
    (valueError "signed_update_bytes must be bytes")
  let _ ← decodeMultisignatureSignedUpdate rt signedUpdateBytes
  let proofs ← validateProofs (← getItem map 3) false true
  return { version, signedUpdateBytes, proofs }

/-- `_is_multisignature_envelope`: the bytes decode to a map with the keys 1, 2 and 3. -/
def isMultisignatureEnvelope (envelopeCbor : Bytes) : Bool :=
  match rt.loads envelopeCbor with
  | some (.dict map) => Dict.keysAre map [1, 2, 3]
  | _ => false

/-- The SignedUpdate bytes a decoder of the envelope's own shape finds. -/
def signedUpdateOf (envelopeCbor : Bytes) : Py Bytes :=
  if isMultisignatureEnvelope rt envelopeCbor then do
    return (← decodeMultisignatureEnvelope rt envelopeCbor).signedUpdateBytes
  else do
    return (← decodeSignedEnvelope rt envelopeCbor).1

end DecentRegistry
