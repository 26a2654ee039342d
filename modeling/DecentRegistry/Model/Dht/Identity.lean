import DecentRegistry.Model.Dht.Instance

/-!
# Identity Records on the DHT

The Identity methods of `Libp2pKadDHT`: publication (`putSignedIdentityRecord`,
`putSignedIdentityRecordIfCurrent`), the validated read (`getValidatedIdentityEnvelope`), the remote
reads by peers and by state hash, with the walk along predecessor hashes
(`readRemoteIdentityPredecessorChain`), and the confirmation of a rotation.
-/

namespace DecentRegistry

open Fallible PyValue Coroutine

variable (rt : Runtime) (d : DhtInstance)

/-! ## Remote reads -/

/-- `_read_dht_value`. -/
def readDhtValue (kadKey : Text) (quorum : ℕ) : Dht (Option Bytes) :=
  orOnException (Coro.request (Request.getValue kadKey quorum)) (return none)

/-- The loop of `read_remote_identity_envelope` over the configured peers. -/
def readFromPeers (objectKeyHex : Text) : List Text → Dht (Option Bytes)
  | [] => return none
  | peer :: rest => do
    if (d.peerId peer).all (· = d.localPeerId) then readFromPeers objectKeyHex rest
    else
      match ← orOnException
          (Coro.request (Request.peerEnvelope peer (kadKey objectKeyHex .identity)))
          (return none) with
      | some envelope => return some envelope
      | none => readFromPeers objectKeyHex rest

/-- `read_remote_identity_envelope`. -/
def readRemoteIdentityEnvelope (objectKeyHex : Text) : Dht (Option Bytes) := do
  let recordKey ← rewrap (fromHex objectKeyHex)
    (valueError "identity object key must be valid hex")
  raiseIf (recordKey.length ≠ 32) (valueError "identity object key must be 32 bytes")
  if d.hasRemoteIdentityReader then
    orOnException (Coro.request (Request.readerEnvelope (toHex recordKey))) (return none)
  else
    let peers ← Coro.reads (·.surroundings.bootstrapPeers)
    readFromPeers d (toHex recordKey) peers

/-- The loop of `read_remote_identity_envelope_by_hash`. -/
def readHistoryFromPeers (kadKey stateHash : Bytes) : List Text → Dht (Option Bytes)
  | [] => return none
  | peer :: rest => do
    if (d.peerId peer).all (· = d.localPeerId) then readHistoryFromPeers kadKey stateHash rest
    else
      match ← orOnException (Coro.request (Request.peerHistory peer kadKey)) (return none) with
      | none => readHistoryFromPeers kadKey stateHash rest
      | some envelope =>
        match envelopeSignedUpdateBytes rt envelope with
        | .error _ => readHistoryFromPeers kadKey stateHash rest
        | .ok signedUpdate =>
          if rt.sha256 signedUpdate = stateHash then return some envelope
          else readHistoryFromPeers kadKey stateHash rest

/-- `read_remote_identity_envelope_by_hash`. -/
def readRemoteIdentityEnvelopeByHash (objectKeyHex : Text) (stateHash : Bytes) :
    Dht (Option Bytes) := do
  let peers ← Coro.reads (·.surroundings.bootstrapPeers)
  if peers.isEmpty then return none
  let kadKey ← identityHistoryKadKey objectKeyHex stateHash
  readHistoryFromPeers rt d kadKey stateHash peers

/-- `MAX_REMOTE_IDENTITY_HISTORY_ENTRIES` and `MAX_REMOTE_IDENTITY_HISTORY_BYTES`. -/
def maxRemoteIdentityHistoryEntries : ℕ := 256

def maxRemoteIdentityHistoryBytes : ℕ := 4 * 1024 * 1024

/-- What the walk reads of an envelope: its state hash, and the one it names as predecessor. -/
def readPredecessorLink (envelope : Bytes) : Py (Bytes × Option Bytes) := do
  let signedUpdateBytes ← envelopeSignedUpdateBytes rt envelope
  let predecessorHash ← identityPredecessorStateHash rt envelope
  return (rt.sha256 signedUpdateBytes, predecessorHash)

/-- The loop of `_read_remote_identity_predecessor_chain`; `remaining` is how many entries the chain
may still get. -/
def walkPredecessors (objectKeyHex : Text) :
    (remaining : ℕ) → (reversedChain seenStateHashes : List Bytes) → (totalBytes : ℕ) →
    (envelope : Bytes) → Dht (Option (List Bytes))
  | 0, _, _, _, _ => return none
  | remaining + 1, reversedChain, seenStateHashes, totalBytes, envelope => do
    match readPredecessorLink rt envelope with
    | .error _ => return none
    | .ok (stateHash, predecessorHash) =>
      if stateHash ∈ seenStateHashes then return none
      if maxRemoteIdentityHistoryBytes < totalBytes + envelope.length then return none
      let reversedChain := envelope :: reversedChain
      match predecessorHash with
      | none => return some reversedChain
      | some predecessorHash =>
        if remaining = 0 then return none
        match ← readRemoteIdentityEnvelopeByHash rt d objectKeyHex predecessorHash with
        | none => return none
        | some predecessor =>
          walkPredecessors objectKeyHex remaining reversedChain (stateHash :: seenStateHashes)
            (totalBytes + envelope.length) predecessor

/-- `_read_remote_identity_predecessor_chain`: the walk under its deadline. -/
def readRemoteIdentityPredecessorChain (objectKeyHex : Text) (currentEnvelope : Bytes) :
    Dht (Option (List Bytes)) :=
  (walkPredecessors rt d objectKeyHex maxRemoteIdentityHistoryEntries [] [] 0
    currentEnvelope).orHandle fun e => if e.cls = .timedOut then return none else .raise e

/-! ## Publication -/

/-- What a conditional publication demands. -/
structure PublicationCondition where
  expectedStateHash : Bytes
  expiresAt : Int

/-- `_publish_dht_value`. -/
def publishDhtValue (kadKey : Text) (value : Bytes) (context : Option IdentityWriteContext) :
    Dht Unit :=
  Coro.request (Request.putValue kadKey value context)

/-- The current DHT value of `_put_signed_identity_record`. -/
def readIdentityForPut (objectKeyHex : Text) (condition : Option PublicationCondition) :
    Dht (Option Bytes) := do
  match condition with
  | some _ =>
    orOnException (Coro.request (Request.getValue (kadKey objectKeyHex .identity) 0))
      (.raise ⟨.identityStateUnavailable,
        "could not read current Identity state before publication"⟩)
  | none =>
    match ← readDhtValue (kadKey objectKeyHex .identity) 0 with
    | some envelope => return some envelope
    | none =>
      let peers ← Coro.reads (·.surroundings.bootstrapPeers)
      if peers.isEmpty then return none
      readRemoteIdentityEnvelope d objectKeyHex

def preconditionFailed (message : String) : PyError := ⟨.identityStatePreconditionFailed, message⟩

/-- The choice of the existing envelope. -/
def selectIdentityForPut (condition : Option PublicationCondition)
    (rawDht rawLocal : Option Bytes) :
    Py (Option Bytes) :=
  rewrap (selectNewestEnvelope rt rawDht rawLocal)
    (if condition.isSome then preconditionFailed "conflicting current Identity state"
     else valueError "conflicting current Identity state")

/-- The check of the expected state. -/
def checkExpectedState (condition : Option PublicationCondition) (rawExisting : Option Bytes) :
    Py Unit := do
  match condition with
  | none => return ()
  | some condition =>
    let actualStateHash ← (match rawExisting with
      | none => return none
      | some existing => do
        let signedUpdate ← rewrap (envelopeSignedUpdateBytes rt existing)
          (preconditionFailed "could not validate the current Identity state")
        return some (rt.sha256 signedUpdate) : Py (Option Bytes))
    raiseIf (actualStateHash ≠ some condition.expectedStateHash)
      (preconditionFailed "Identity state differs from expected state")

/-- The check of the deadline against the clock. -/
def checkNotExpired (condition : Option PublicationCondition) : Dht Unit := do
  match condition with
  | none => return ()
  | some condition =>
    let now ← Coro.reads (·.surroundings.clock)
    if condition.expiresAt ≤ now then
      .raise ⟨.identityPublicationExpired, "Identity consent expired"⟩

/-- The predecessor chain of the existing envelope: local history that ends at it, or the remote
walk from it. -/
def predecessorChainForPut (objectKeyHex : Text) (recordKey : Bytes) (rawExisting : Option Bytes) :
    Dht (Option (List Bytes)) := do
  let history ← durableHistory rt d .identity recordKey
  match historyEndingAt history rawExisting, rawExisting with
  | some chain, _ => return some chain
  | none, none => return none
  | none, some existing =>
    match ← readRemoteIdentityPredecessorChain rt d objectKeyHex existing with
    | some chain => return some chain
    | none =>
      match identityPredecessorStateHash rt existing with
      | .ok (some _) =>
        .raise (historyUnavailable "authenticated Identity predecessor history is unavailable")
      | _ => return none

/-- The part of `_put_signed_identity_record` for legacy envelopes over legacy state. -/
def putLegacyIdentity (objectKeyHex : Text) (recordKey envelopeCbor : Bytes)
    (rawExisting : Option Bytes) (condition : Option PublicationCondition) : Dht Unit := do
  let result ← validateIdentityOverwrite rt recordKey envelopeCbor rawExisting none
  checkNotExpired condition
  publishDhtValue (kadKey objectKeyHex .identity) envelopeCbor
    (some ⟨recordKey, envelopeCbor, rawExisting, none⟩)
  durableInstall rt d .identity recordKey envelopeCbor result.attributes none

/-- The part of `_put_signed_identity_record` that uses the accepted state. -/
def putAcceptedIdentity (objectKeyHex : Text) (recordKey envelopeCbor : Bytes)
    (rawExisting : Option Bytes) (condition : Option PublicationCondition) : Dht Unit := do
  let isMultisignature := isMultisignatureEnvelope rt envelopeCbor
  let predecessorChain ← predecessorChainForPut rt d objectKeyHex recordKey rawExisting
  let result ← validateIdentityOverwrite rt recordKey envelopeCbor rawExisting predecessorChain
  let context := some ⟨recordKey, envelopeCbor, rawExisting, predecessorChain⟩
  if condition.isSome ∧ isMultisignature = true then
    requireDurableIdentityHistory d result.attributes
  checkNotExpired condition
  if condition.isSome then
    publishDhtValue (kadKey objectKeyHex .identity) envelopeCbor context
    if isMultisignature then
      durableInstall rt d .identity recordKey envelopeCbor result.attributes none
  else
    if isMultisignature = true ∧ d.durableStore.isSome then
      durableInstall rt d .identity recordKey envelopeCbor result.attributes none
    publishDhtValue (kadKey objectKeyHex .identity) envelopeCbor context

/-- `_put_signed_identity_record`. -/
def putIdentityRecord (objectKeyHex : Text) (envelopeCbor : Bytes)
    (condition : Option PublicationCondition) : Dht Unit := do
  let recordKey ← fromHex objectKeyHex
  withAcceptedLock do
    let rawDht ← readIdentityForPut d objectKeyHex condition
    let rawLocal ← durableGet d .identity recordKey
    let rawExisting ← selectIdentityForPut rt condition rawDht rawLocal
    checkExpectedState rt condition rawExisting
    requireServableHistory rt d envelopeCbor
      "durable Identity history is required for post-genesis writes on a Registry server"
    if !(isMultisignatureEnvelope rt envelopeCbor || isMultisignatureValue rt rawDht ||
        isMultisignatureValue rt rawLocal)
    then putLegacyIdentity rt d objectKeyHex recordKey envelopeCbor rawExisting condition
    else putAcceptedIdentity rt d objectKeyHex recordKey envelopeCbor rawExisting condition

/-- `put_signed_identity_record`. -/
def putSignedIdentityRecord (objectKeyHex : Text) (envelopeCbor : Bytes) : Dht Unit :=
  putIdentityRecord rt d objectKeyHex envelopeCbor none

/-- `put_signed_identity_record_if_current`. -/
def putSignedIdentityRecordIfCurrent (objectKeyHex : Text) (envelopeCbor : Bytes)
    (expectedStateHash : Option Bytes) (expiresAt : Int) : Dht Unit := do
  let expectedStateHash ← orRaise expectedStateHash
    (preconditionFailed "DHT reads cannot prove that the Identity key is absent")
  raiseIf (expectedStateHash.length ≠ 32)
    (valueError "expected_state_hash must be exactly 32 bytes")
  putIdentityRecord rt d objectKeyHex envelopeCbor (some ⟨expectedStateHash, expiresAt⟩)

/-! ## Reads -/

/-- The validation of `_get_validated_identity_envelope_unlocked`, with its fall-back on a remote
walk: the result and the chain it was validated with. -/
def validateCurrentIdentity (objectKeyHex : Text) (recordKey current : Bytes)
    (predecessorChain : Option (List Bytes)) :
    Dht (Option (IdentityRead × Option (List Bytes))) := do
  match validateIdentityGet rt recordKey current predecessorChain with
  | .ok result => return some (result, predecessorChain)
  | .error _ =>
    match ← readRemoteIdentityPredecessorChain rt d objectKeyHex current with
    | none =>
      match identityPredecessorStateHash rt current with
      | .ok (some _) =>
        .raise (historyUnavailable "authenticated Identity predecessor history is unavailable")
      | _ => return none
    | some chain =>
      match validateIdentityGet rt recordKey current (some chain) with
      | .ok result => return some (result, some chain)
      | .error _ =>
        .raise (historyUnavailable
          "authenticated Identity predecessor history could not be validated")

/-- The DHT value of a read, with its fall-back on the configured peers. -/
def readIdentityForGet (objectKeyHex : Text) (quorum : ℕ) : Dht (Option Bytes) := do
  match ← readDhtValue (kadKey objectKeyHex .identity) quorum with
  | some envelope => return some envelope
  | none =>
    let peers ← Coro.reads (·.surroundings.bootstrapPeers)
    if peers.isEmpty then return none
    readRemoteIdentityEnvelope d objectKeyHex

/-- `_get_validated_identity_envelope_unlocked`. -/
def getValidatedIdentityEnvelopeUnlocked (objectKeyHex : Text) (quorum : ℕ) :
    Dht (Option (Bytes × IdentityRead)) := do
  let recordKey ← fromHex objectKeyHex
  let rawDht ← readIdentityForGet d objectKeyHex quorum
  let rawLocal ← durableGet d .identity recordKey
  match selectNewestEnvelope rt rawDht rawLocal with
  | .error _ | .ok none => return none
  | .ok (some current) =>
    let history ← durableHistory rt d .identity recordKey
    match ← validateCurrentIdentity rt d objectKeyHex recordKey current
        (historyToCurrent history rawLocal (some current)) with
    | none => return none
    | some (result, predecessorChain) =>
      if some current = rawDht then
        durableCache rt d .identity recordKey current result.attributes predecessorChain
      return some (current, result)

/-- `_get_validated_identity_envelope`. -/
def getValidatedIdentityEnvelope (objectKeyHex : Text) (quorum : ℕ) :
    Dht (Option (Bytes × IdentityRead)) :=
  withAcceptedLock (getValidatedIdentityEnvelopeUnlocked rt d objectKeyHex quorum)

/-- `get_identity_envelope`. -/
def getIdentityEnvelope (objectKeyHex : Text) (quorum : ℕ) : Dht (Option Bytes) := do
  return (← getValidatedIdentityEnvelope rt d objectKeyHex quorum).map (·.1)

/-- `get_signed_identity_record`. -/
def getSignedIdentityRecord (objectKeyHex : Text) (quorum : ℕ) : Dht (Option IdentityRead) := do
  return (← getValidatedIdentityEnvelope rt d objectKeyHex quorum).map (·.2)

/-- `confirm_identity_owner_key_rotation`. -/
def confirmIdentityOwnerKeyRotation (ownerNameHex : Text) (expectedEnvelope : Bytes) :
    Dht (Option IdentityRecordResult) := do
  let ownerName ← rewrap (fromHex ownerNameHex) (valueError "owner_name must be valid hex")
  let recordKey := rt.sha256 ownerName
  let remote ← readRemoteIdentityEnvelope d (toHex recordKey)
  if remote ≠ some expectedEnvelope then return none
  let history ← durableHistory rt d .identity recordKey
  let localValue ← durableGet d .identity recordKey
  match historyToCurrent history localValue (some expectedEnvelope) with
  | none => return none
  | some chain =>
    match validateIdentityGet rt recordKey expectedEnvelope (some chain) with
    | .ok (.record result) =>
      if result.ownerName = ownerName ∧ result.authorization.operation = .ownerKeyRotation then
        durableCache rt d .identity recordKey expectedEnvelope
          (IdentityRead.record result).attributes (some chain)
        return some result
      else return none
    | _ => return none

end DecentRegistry
