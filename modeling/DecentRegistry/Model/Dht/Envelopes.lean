import DecentRegistry.Model.DurableStore
import DecentRegistry.Model.RecordValidator

/-!
# Envelopes as the DHT adapter reads them

The helpers at the head of `dht/libp2p_dht.py`: what the adapter reads of an envelope before the
validator has seen it, the choice between two envelopes (`selectNewestEnvelope`), and the sequence
number and state hash it records for a validated result.
-/

namespace DecentRegistry

open Fallible PyValue

variable (rt : Runtime)

/-- `_envelope_signed_update_bytes`. -/
def envelopeSignedUpdateBytes (envelopeCbor : Bytes) : Py Bytes := do
  let decoded ← loads rt envelopeCbor
  let map ← orRaise decoded.asDict? (valueError "accepted envelope must be a CBOR map")
  let signedUpdateBytes ← (
    if map.keysAre [1, 2] then getItem map 1
    else if map.keysAre [1, 2, 3] then getItem map 2
    else throw (valueError "accepted envelope has an unsupported shape") : Py Value)
  orRaise signedUpdateBytes.asBytes? (valueError "accepted envelope SignedUpdate must be bytes")

/-- `_envelope_seq`. -/
def envelopeSeq (envelopeCbor : Bytes) : Py ℕ := do
  let signedUpdateBytes ← envelopeSignedUpdateBytes rt envelopeCbor
  let signedUpdate ← loads rt signedUpdateBytes
  let value ← orRaise (subscript signedUpdate 3) keyError
  let seq ← orRaise value.asInt?
    (valueError "accepted envelope seq must be a non-negative integer")
  raiseIf (seq < 0) (valueError "accepted envelope seq must be a non-negative integer")
  return seq.toNat

/-- `_is_multisignature_envelope`, of a value that may be missing. -/
def isMultisignatureValue (envelopeCbor : Option Bytes) : Bool :=
  envelopeCbor.any (isMultisignatureEnvelope rt)

/-- `_is_provider_withdrawal_envelope`. -/
def isProviderWithdrawalEnvelope (envelopeCbor : Option Bytes) : Bool :=
  match envelopeCbor with
  | none => false
  | some envelope =>
    let withdrawn : Py Bool := do
      let update ← decodeCanonicalSignedUpdate rt (← signedUpdateOf rt envelope)
      return (← decodeProviderPayloadDict update.payload).isWithdrawn
    match withdrawn with
    | .ok isWithdrawn => isWithdrawn
    | .error _ => false

/-- `_identity_predecessor_state_hash`. -/
def identityPredecessorStateHash (envelopeCbor : Bytes) : Py (Option Bytes) := do
  let signedUpdate ←
    decodeCanonicalSignedUpdate rt (← envelopeSignedUpdateBytes rt envelopeCbor)
  match signedUpdate.authorization with
  | none => return none
  | some authorization =>
    if authorization.operation = .genesis then return none
    raiseIf (authorization.predecessorStateHash.length ≠ 32)
      (valueError "Identity predecessor state hash must be 32 bytes")
    return some authorization.predecessorStateHash

/-- `_select_newest_envelope`. -/
def selectNewestEnvelope (first second : Option Bytes) : Py (Option Bytes) :=
  match first, second with
  | none, second => return second
  | some first, none => return some first
  | some first, some second =>
    if first = second then return some first
    else match envelopeSeq rt first, envelopeSeq rt second with
      | .ok firstSeq, .ok secondSeq =>
        if firstSeq = secondSeq then do
          let firstUpdate ← envelopeSignedUpdateBytes rt first
          let secondUpdate ← envelopeSignedUpdateBytes rt second
          raiseIf (firstUpdate ≠ secondUpdate)
            (valueError "conflicting accepted envelopes at equal seq")
          return some second
        else if secondSeq < firstSeq then return some first
        else return some second
      -- One of the two does not parse; the validator still sees the other.
      | .error _, _ => return some second
      | .ok _, .error _ => return some first

/-! ## Results -/

/-- The attributes the adapter reads of a validator's result; a result that lacks one has `None`. -/
structure ResultAttributes where
  seq : Option ℕ
  authorization : Option AuthorizationMetadata
  state : Option MultisignatureState

def IdentityOverwriteResult.attributes (r : IdentityOverwriteResult) : ResultAttributes :=
  ⟨some r.seq, r.authorization, r.state⟩

def ProviderWithdrawnResult.attributes (r : ProviderWithdrawnResult) : ResultAttributes :=
  ⟨some r.seq, r.authorization, none⟩

def ProviderWrite.attributes : ProviderWrite → ResultAttributes
  | .overwrite r => ⟨some r.seq, r.authorization, r.state⟩
  | .withdrawn r => r.attributes

def IdentityRead.attributes : IdentityRead → ResultAttributes
  | .legacy r => r.attributes
  | .record r => ⟨some r.seq, some r.authorization, none⟩

/-- The payload of a legacy record has none of the attributes. -/
def ProviderRead.attributes : ProviderRead → ResultAttributes
  | .payload _ => ⟨none, none, none⟩
  | .withdrawn r => r.attributes
  | .record r => ⟨some r.seq, some r.authorization, none⟩

/-- `_result_seq_and_state_hash`. -/
def resultSeqAndStateHash (result : ResultAttributes) (envelopeCbor : Bytes) : Py (ℕ × Bytes) := do
  let seq ← (match result.seq with
    | some seq => return seq
    | none => envelopeSeq rt envelopeCbor : Py ℕ)
  match result.authorization with
  | some authorization => return (seq, authorization.stateHash)
  | none => return (seq, rt.sha256 (← envelopeSignedUpdateBytes rt envelopeCbor))

/-! ## Keys of the DHT -/

/-- `_kad_key`. -/
def kadKey (objectHash : Text) (kind : RecordKind) : Text :=
  "/decent-registry/".toList ++ kind.text ++ '/' :: objectHash

/-- `_parse_key`. -/
def parseKey (key : Text) : Py (RecordKind × Bytes) := do
  match key.splitOn '/' with
  | [start, registry, kindText, hash] =>
    raiseIf (start ≠ [] ∨ registry ≠ "decent-registry".toList)
      (valueError "invalid Registry DHT key")
    let kind ← (
      if kindText = RecordKind.identity.text then return .identity
      else if kindText = RecordKind.provider.text then return .provider
      else throw (valueError "invalid Registry DHT key") : Py RecordKind)
    let recordKey ← rewrap (fromHex hash) (valueError "invalid Registry DHT key hash")
    raiseIf (recordKey.length ≠ 32) (valueError "Registry DHT key hash must be 32 bytes")
    return (kind, recordKey)
  | _ => throw (valueError "invalid Registry DHT key")

/-- `key.decode("utf-8")`. -/
def decodeUtf8 (key : Bytes) : Py Text :=
  orRaise ((String.fromUTF8? ⟨key.toArray⟩).map String.toList) (valueError "invalid utf-8")

/-- The prefix of the keys under which accepted Identity history is served. -/
def historyKeyPrefix : Bytes := utf8 "/decent-registry/history/".toList

/-- `_parse_identity_history_key`. -/
def parseIdentityHistoryKey (key : Bytes) : Py (Bytes × Bytes) := do
  raiseIf (key.length ≠ historyKeyPrefix.length + 64 ∨ ¬ historyKeyPrefix <+: key)
    (valueError "invalid Registry Identity history key")
  let rest := key.drop historyKeyPrefix.length
  return (rest.take 32, rest.drop 32)

/-- `_identity_history_kad_key`. -/
def identityHistoryKadKey (objectKeyHex : Text) (stateHash : Bytes) : Py Bytes := do
  let objectKey ← rewrap (fromHex objectKeyHex)
    (valueError "identity object key must be valid hex")
  raiseIf (objectKey.length ≠ 32) (valueError "identity object key must be 32 bytes")
  raiseIf (stateHash.length ≠ 32) (valueError "state_hash must be 32 bytes")
  return historyKeyPrefix ++ objectKey ++ stateHash

end DecentRegistry
