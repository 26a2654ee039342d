import DecentRegistry.Model.Dht.Envelopes

/-!
# Selection among the values of a key

`_RegistryDHTValueValidator._metadata` and `_RegistryDHTValueValidator.select` of
`dht/libp2p_dht.py`: what the namespace validator reads of one value, and the value it picks of
several.
-/

namespace DecentRegistry

open Fallible PyValue

variable (rt : Runtime)

/-- The checks of `_metadata` that bind a SignedUpdate to its key. -/
def requireKeyBinding (kind : RecordKind) (recordKey : Bytes) (signedUpdate : SignedUpdate) :
    Py Unit :=
  match kind with
  | .identity => do
    let ownerName ← orRaise ((signedUpdate.recordFields.get? 1).bind Value.asBytes?)
      (valueError "Registry Identity owner name must be bytes")
    raiseIf (rt.sha256 ownerName ≠ recordKey)
      (valueError "Registry Identity key does not match owner name")
    raiseIf (∃ a ∈ signedUpdate.authorization, a.recordKind ≠ .identity)
      (valueError "Registry Identity key has a different record kind")
  | .provider => do
    let providerPayload ← decodeProviderPayloadDict signedUpdate.payload
    raiseIf ((← fromHex providerPayload.objectHash) ≠ recordKey)
      (valueError "Registry Provider key does not match object hash")
    raiseIf (∃ a ∈ signedUpdate.authorization, a.recordKind ≠ .provider)
      (valueError "Registry Provider key has a different record kind")

/-- `_RegistryDHTValueValidator._metadata`. -/
def metadata (key : Text) (value : Bytes) : Py (ℕ × Bytes) := do
  let (kind, recordKey) ← parseKey key
  let decoded ← rewrap (loads rt value) (valueError "invalid Registry DHT envelope")
  let map ← orRaise decoded.asDict? (valueError "Registry DHT envelope must be a CBOR map")
  let signedUpdateBytes ← (
    if map.keysAre [1, 2] then do return (← decodeSignedEnvelope rt value).1
    else if map.keysAre [1, 2, 3] then do
      return (← decodeMultisignatureEnvelope rt value).signedUpdateBytes
    else throw (valueError "unsupported Registry DHT envelope") : Py Bytes)
  let signedUpdate ← decodeCanonicalSignedUpdate rt signedUpdateBytes
  requireKeyBinding rt kind recordKey signedUpdate
  return (signedUpdate.seq, rt.sha256 signedUpdateBytes)

/-- The loop of `select`: `index` is that of the next value, `best` the metadata of the value at
`bestIndex`. -/
def selectFrom (key : Text) : List Bytes → ℕ → ℕ → ℕ × Bytes → Py ℕ
  | [], _, bestIndex, _ => return bestIndex
  | value :: rest, index, bestIndex, best => do
    let (seq, stateHash) ← metadata rt key value
    if best.1 < seq then selectFrom key rest (index + 1) index (seq, stateHash)
    else do
      raiseIf (seq = best.1 ∧ stateHash ≠ best.2)
        (valueError "conflicting Registry states at equal sequence")
      selectFrom key rest (index + 1) bestIndex best

/-- `_RegistryDHTValueValidator.select`. -/
def select (key : Text) : List Bytes → Py ℕ
  | [] => throw (valueError "cannot select from an empty Registry value list")
  | value :: rest => do selectFrom rt key rest 1 0 (← metadata rt key value)

end DecentRegistry
