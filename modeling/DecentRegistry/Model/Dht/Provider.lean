import DecentRegistry.Model.Dht.Identity

/-!
# Provider Records on the DHT

`put_signed_provider_record`, `get_signed_provider_envelope` and `get_signed_provider_record`. A
legacy write over legacy state is validated against the DHT value alone and stored by a plain `put`
(`putLegacyProvider`); every other write is validated against the newer of the DHT value and the
durable one (`putAcceptedProvider`). -/

namespace DecentRegistry

open Fallible PyValue Coroutine

variable (rt : Runtime) (d : DhtInstance)

def providerStateUnavailable (message : String) : PyError := ⟨.providerStateUnavailable, message⟩

def providerStateConflict (message : String) : PyError := ⟨.providerStateConflict, message⟩

/-- The check on the heads of a legacy withdrawal. -/
def checkWithdrawalHeads (rawDht rawLocal : Option Bytes) : Py Unit := do
  raiseIf (rawLocal = none ∨ rawDht = none) (providerStateUnavailable
    "cannot prove the current Provider head from DHT and durable state")
  let _ ← rewrap (selectNewestEnvelope rt rawDht rawLocal)
    (providerStateConflict "conflicting current Provider Record heads")

/-- For a withdrawal, the check that the legacy DHT value is active. -/
def checkActiveDhtPredecessor (result : ProviderWrite) (rawDht : Option Bytes) : Py Unit := do
  match result with
  | .overwrite _ => return ()
  | .withdrawn _ =>
    let existing ← orRaise rawDht
      (providerStateUnavailable "active DHT predecessor state is unavailable")
    let (existingUpdateBytes, _) ← decodeSignedEnvelope rt existing
    let existingUpdate ← decodeCanonicalSignedUpdate rt existingUpdateBytes
    raiseIf (← decodeProviderPayloadDict existingUpdate.payload).isWithdrawn
      ⟨.providerAlreadyWithdrawn, "Provider Record is already withdrawn"⟩

/-- The part of `put_signed_provider_record` that does not use the accepted state. -/
def putLegacyProvider (objectHash : Text) (recordKey envelopeCbor : Bytes)
    (rawDht rawLocal : Option Bytes) : Dht Unit := do
  if isProviderWithdrawalEnvelope rt (some envelopeCbor) = true ∧ d.durableStore.isSome then
    checkWithdrawalHeads rt rawDht rawLocal
  let result ← validateProviderOverwrite rt recordKey envelopeCbor rawDht
  checkActiveDhtPredecessor rt result rawDht
  publishDhtValue (kadKey objectHash .provider) envelopeCbor none
  if d.durableStore.isSome then
    match result with
    | .withdrawn r =>
      durableInstall rt d .provider recordKey envelopeCbor r.attributes
        (rawDht.map fun existing => [existing, envelopeCbor])
    | .overwrite _ => storePut .provider recordKey envelopeCbor

/-- The history stored with a withdrawal: that of the existing envelope, and the withdrawal. -/
def withdrawalHistory (predecessorHistory : Option (List Bytes)) (existing envelopeCbor : Bytes) :
    List Bytes :=
  match predecessorHistory.filter fun history => history.getLast? = some existing with
  | some history => history.take (history.idxOf existing + 1) ++ [envelopeCbor]
  | none => [existing, envelopeCbor]

/-- The check that the durable head is still the existing envelope. -/
def requireUnchangedHead (recordKey : Bytes) (rawExisting : Option Bytes) : Dht Unit := do
  let localHead ← durableGet d .provider recordKey
  raiseIf (localHead ≠ rawExisting)
    (providerStateConflict "durable Provider Record head changed before withdrawal")

/-- The part of `put_signed_provider_record` that uses the accepted state. -/
def putAcceptedProvider (objectHash : Text) (recordKey envelopeCbor : Bytes)
    (rawDht rawLocal : Option Bytes) : Dht Unit := do
  let rawExisting ← selectNewestEnvelope rt rawDht rawLocal
  let result ← validateProviderOverwrite rt recordKey envelopeCbor rawExisting
  match result with
  | .withdrawn r =>
    let existing ← orRaise rawExisting
      (valueError "a Provider withdrawal requires an active predecessor state")
    let predecessorHistory ← durableHistory rt d .provider recordKey
    if d.durableStore.isSome ∧ rawLocal.isSome then
      requireUnchangedHead d recordKey rawExisting
    durableInstall rt d .provider recordKey envelopeCbor r.attributes
      (some (withdrawalHistory predecessorHistory existing envelopeCbor))
    publishDhtValue (kadKey objectHash .provider) envelopeCbor none
  | .overwrite _ =>
    if isMultisignatureEnvelope rt envelopeCbor then
      durableInstall rt d .provider recordKey envelopeCbor result.attributes none
    publishDhtValue (kadKey objectHash .provider) envelopeCbor none

/-- `put_signed_provider_record`. -/
def putSignedProviderRecord (objectHash : Text) (envelopeCbor : Bytes) : Dht Unit := do
  let recordKey ← fromHex objectHash
  withAcceptedLock do
    let rawDht ← readDhtValue (kadKey objectHash .provider) 0
    let rawLocal ← durableGet d .provider recordKey
    if usesAcceptedState rt envelopeCbor rawDht rawLocal then
      putAcceptedProvider rt d objectHash recordKey envelopeCbor rawDht rawLocal
    else putLegacyProvider rt d objectHash recordKey envelopeCbor rawDht rawLocal

/-- `get_signed_provider_envelope`. -/
def getSignedProviderEnvelope (objectHash : Text) (quorum : ℕ) : Dht (Option Bytes) := do
  let recordKey ← rewrap (fromHex objectHash) (valueError "object_hash must be valid hex")
  raiseIf (recordKey.length ≠ 32) (valueError "object_hash must be 64 hex characters")
  withAcceptedLock do
    let rawDht ← readDhtValue (kadKey (toHex recordKey) .provider) quorum
    let rawLocal ← durableGet d .provider recordKey
    let current ← rewrap (selectNewestEnvelope rt rawDht rawLocal)
      (providerStateConflict "conflicting current Provider Record heads")
    return current

/-- The predecessor `get_signed_provider_record` validates a withdrawal with; `none` when it has
none. -/
def withdrawalPredecessor (history : Option (List Bytes)) (rawLocal : Option Bytes)
    (current : Bytes) : Option Bytes := do
  let localValue ← rawLocal
  if localValue = current then
    let history ← history
    if history.length < 2 ∨ history.getLast? ≠ some current then none
    history[history.length - 2]?
  else some localValue

/-- The validation of `get_signed_provider_record`; `none` where it returns `None`, also for an
exception. -/
def validateCurrentProvider (recordKey current : Bytes) (rawLocal : Option Bytes)
    (history : Option (List Bytes)) : Option ProviderRead :=
  let validated : Py (Option ProviderRead) := do
    let signedUpdate ← decodeCanonicalSignedUpdate rt (← signedUpdateOf rt current)
    if (← decodeProviderPayloadDict signedUpdate.payload).isWithdrawn then
      match withdrawalPredecessor history rawLocal current with
      | none => return none
      | some predecessor =>
        return some (← validateProviderGet rt recordKey current (some predecessor))
    else return some (← validateProviderGet rt recordKey current none)
  match validated with
  | .ok result => result
  | .error _ => none

/-- `get_signed_provider_record`. -/
def getSignedProviderRecord (objectHash : Text) (quorum : ℕ) : Dht (Option ProviderRead) := do
  let recordKey ← fromHex objectHash
  let rawDht ← readDhtValue (kadKey objectHash .provider) quorum
  let rawLocal ← durableGet d .provider recordKey
  let rawCurrent ← rewrap (selectNewestEnvelope rt rawDht rawLocal)
    (providerStateConflict "conflicting current Provider Record heads")
  match rawCurrent with
  | none => return none
  | some current =>
    let history ← durableHistory rt d .provider recordKey
    match validateCurrentProvider rt recordKey current rawLocal history with
    | none => return none
    | some result =>
      if some current = rawDht then
        let cachedHistory := match result with
          | .withdrawn _ => history
          | _ => none
        durableCache rt d .provider recordKey current result.attributes cachedHistory
      return some result

end DecentRegistry
