import DecentRegistry.Foundations.Coroutine
import DecentRegistry.Model.Dht.Envelopes

/-!
# An instance of the DHT adapter

The state a `Libp2pKadDHT` shares between its tasks, the requests at which a task suspends, and the
synchronous methods: access to the durable store (`durableInstall`, `durableCache`) and the hooks on
the local value store of `KadDHT` through which inbound values are accepted (`inboundPut`), and the
values that `KadDHT` puts itself while it answers (`KadAnswers`).

Every method is a coroutine (`Dht`). Suspending at a request may fail with any exception, among them
the cancellation of the task, which `except Exception` does not catch (`orOnException`). What
belongs to other packages or to the operating system is `Surroundings`: it may change at any
suspension. -/

namespace DecentRegistry

open Fallible PyValue Coroutine

/-! ## State -/

/-- The state outside the Registry's control: the records of `KadDHT.value_store`, the clock, the
serving mode and the configured peers. -/
structure Surroundings where
  valueStore : Bytes → Option Bytes
  clock : Int
  serverMode : Bool
  bootstrapPeers : List Text

/-- `_durable_store`, `_accepted_lock` and the surroundings. -/
structure DhtState where
  durable : LMDBDatastore
  acceptedLock : Bool
  surroundings : Surroundings

/-- The optional methods of a storage backend, which the adapter looks up before it uses them. -/
structure StorageBackend where
  hasGetHistory : Bool
  hasPutIfNewer : Bool
  deriving DecidableEq

/-- What is fixed when an instance is made. -/
structure DhtInstance where
  durableStore : Option StorageBackend
  hasRemoteIdentityReader : Bool
  localPeerId : Bytes
  /-- `info_from_p2p_addr(Multiaddr(peer)).peer_id`; `none` when it raises. -/
  peerId : Text → Option Bytes

/-- `_local_identity_write_context`: record key, envelope, existing envelope, predecessor chain. -/
structure IdentityWriteContext where
  recordKey : Bytes
  envelopeCbor : Bytes
  existingEnvelopeCbor : Option Bytes
  predecessorChain : Option (List Bytes)

/-- What a task waits for. -/
inductive Request
  /-- Entering `async with self._accepted_lock`. -/
  | acceptedLock
  /-- `KadDHT.get_value`. -/
  | getValue (kadKey : Text) (quorum : ℕ)
  /-- `KadDHT.put_value`, under `_local_dht_write` and the given write context. -/
  | putValue (kadKey : Text) (value : Bytes) (context : Option IdentityWriteContext)
  /-- `remote_reader.read_remote_identity_envelope`. -/
  | readerEnvelope (objectKeyHex : Text)
  /-- A direct read from one peer, by a fresh client. -/
  | peerEnvelope (peer : Text) (kadKey : Text)
  /-- `value_store._get_from_peer`, of a history key. -/
  | peerHistory (peer : Text) (kadKey : Bytes)

/-- The answers. A record without a byte value counts as none. -/
def Request.Answer : Request → Type
  | .acceptedLock | .putValue _ _ _ => Unit
  | .getValue _ _ | .readerEnvelope _ | .peerEnvelope _ _ | .peerHistory _ _ => Option Bytes

/-- The methods of an instance. -/
abbrev Dht (α : Type) := Coro DhtState Request Request.Answer PyError α

/-- `try: p except Exception: handler`. -/
def orOnException {α : Type} (p handler : Dht α) : Dht α :=
  p.orHandle fun e => if e.cls.isException then handler else .raise e

/-- `async with self._accepted_lock: p`. -/
def withAcceptedLock {α : Type} (p : Dht α) : Dht α := do
  Coro.request Request.acceptedLock
  p.andFinally (Coro.modify fun s => { s with acceptedLock := false })

/-! ## Local chains -/

/-- `_history_ending_at`. -/
def historyEndingAt (history : Option (List Bytes)) (value : Option Bytes) :
    Option (List Bytes) :=
  match history, value with
  | some history, some value => if history.getLast? = some value then some history else none
  | _, _ => none

/-- `_history_to_current`. -/
def historyToCurrent (history : Option (List Bytes)) (localValue currentValue : Option Bytes) :
    Option (List Bytes) :=
  match currentValue with
  | none => none
  | some current =>
    match history.filter fun history => history.getLast? = some current with
    | some history => some history
    | none =>
      match localValue with
      | none => none
      | some value =>
        if value = current then none
        else match history with
          | some history =>
            if history.getLast? = some value then some (history ++ [current]) else none
          | none => some [value, current]

/-! ## The durable store -/

variable (rt : Runtime) (d : DhtInstance)

/-- `_durable_get`. -/
def durableGet (kind : RecordKind) (key : Bytes) : Dht (Option Bytes) :=
  if d.durableStore.isNone then return none
  else Coro.reads fun s => s.durable.get kind key

/-- `_durable_history`. -/
def durableHistory (kind : RecordKind) (key : Bytes) : Dht (Option (List Bytes)) :=
  match d.durableStore with
  | none => return none
  | some backend =>
    if backend.hasGetHistory then Coro.reads fun s => s.durable.getHistory rt kind key
    else return none

/-- `self._durable_store.put`. -/
def storePut (kind : RecordKind) (key value : Bytes) : Dht Unit :=
  Coro.modify fun s => { s with durable := s.durable.put kind key value }

/-- `self._durable_store.put_if_newer`. -/
def storePutIfNewer (w : AcceptedWrite) : Dht Bool :=
  Coro.transact fun s => match s.durable.putIfNewer rt w with
    | .ok (accepted, durable) => (.ok accepted, { s with durable := durable })
    | .error e => (.error e, s)

/-- `_require_durable_identity_history`. -/
def requireDurableIdentityHistory (result : ResultAttributes) : Py Unit :=
  raiseIf (result.authorization.map (·.operation) = some .ownerKeyRotation ∧
      d.durableStore ≠ some ⟨true, true⟩)
    (valueError "owner-key rotation requires durable predecessor history")

/-- The part of `_durable_install` that writes. The history of an Identity is that of the result. -/
def installAccepted (backend : StorageBackend) (kind : RecordKind) (key value : Bytes)
    (result : ResultAttributes) (history : Option (List Bytes)) : Dht Unit := do
  if (← durableGet d kind key) = some value then return ()
  let (seq, stateHash) ← resultSeqAndStateHash rt result value
  if !backend.hasPutIfNewer then storePut kind key value
  else
    let history := if kind = .identity then result.state.bind (·.history) else history
    if !(← storePutIfNewer rt { kind, key, value, seq, stateHash, history }) then
      if (← durableGet d kind key) = some value then return ()
      Coro.raise (valueError "stale or conflicting accepted state")

/-- `_durable_install`. -/
def durableInstall (kind : RecordKind) (key value : Bytes) (result : ResultAttributes)
    (history : Option (List Bytes)) : Dht Unit := do
  if kind = .identity then requireDurableIdentityHistory d result
  match d.durableStore with
  | none => return ()
  | some backend => installAccepted rt d backend kind key value result history

/-- `_durable_cache`. -/
def durableCache (kind : RecordKind) (key value : Bytes) (result : ResultAttributes)
    (history : Option (List Bytes)) : Dht Unit := do
  match d.durableStore with
  | none => return ()
  | some backend =>
    let (seq, stateHash) ← resultSeqAndStateHash rt result value
    if !backend.hasPutIfNewer then storePut kind key value
    else
      let _ ← storePutIfNewer rt { kind, key, value, seq, stateHash, history }

/-- The envelope of a chain with a given state hash, up to the first that does not parse. -/
def findByStateHash (stateHash : Bytes) : List Bytes → Option Bytes
  | [] => none
  | envelope :: rest =>
    match envelopeSignedUpdateBytes rt envelope with
    | .error _ => none
    | .ok signedUpdate =>
      if rt.sha256 signedUpdate = stateHash then some envelope
      else findByStateHash stateHash rest

/-- `_get_durable_identity_envelope_by_hash`. -/
def durableIdentityEnvelopeByHash (objectKeyHex : Text) (stateHash : Bytes) :
    Dht (Option Bytes) := do
  raiseIf (stateHash.length ≠ 32) (valueError "state_hash must be 32 bytes")
  let recordKey ← fromHex objectKeyHex
  match ← durableGet d .identity recordKey with
  | none => return none
  | some current =>
    let history ← durableHistory rt d .identity recordKey
    let predecessorChain := historyEndingAt history (some current)
    match validateIdentityGet rt recordKey current predecessorChain with
    | .error _ => return none
    | .ok _ => return findByStateHash rt stateHash (predecessorChain.getD [current])

/-! ## The hooks on the value store -/

/-- `value_store.get` as `KadDHT` has it. -/
def originalGet (key : Bytes) : Dht (Option Bytes) := Coro.reads (·.surroundings.valueStore key)

/-- `value_store.put` as `KadDHT` has it. -/
def originalPut (key value : Bytes) : Dht Unit :=
  Coro.modify fun s => { s with surroundings := { s.surroundings with
    valueStore := fun k => if k = key then some value else s.surroundings.valueStore k } }

/-- The end of the hooked `get`: the accepted envelope takes the place of what is stored. -/
def serveAccepted (key envelope : Bytes) : Dht (Option Bytes) := do
  let cached ← originalGet key
  if cached = some envelope then return cached
  originalPut key envelope
  originalGet key

/-- `value_store.get` as hooked. -/
def valueStoreGet (key : Bytes) : Dht (Option Bytes) :=
  match parseIdentityHistoryKey key with
  | .ok (objectKey, stateHash) => do
    match ← durableIdentityEnvelopeByHash rt d (toHex objectKey) stateHash with
    | none => return none
    | some envelope => serveAccepted key envelope
  | .error _ =>
    match decodeUtf8 key >>= parseKey with
    | .error _ => originalGet key
    | .ok (.provider, _) => originalGet key
    | .ok (.identity, recordKey) => do
      match ← durableGet d .identity recordKey with
      | none => originalGet key
      | some envelope =>
        let history ← durableHistory rt d .identity recordKey
        match validateIdentityGet rt recordKey envelope
          (historyEndingAt history (some envelope)) with
        | .error _ => return none
        | .ok _ => serveAccepted key envelope

def historyUnavailable (message : String) : PyError := ⟨.identityHistoryUnavailable, message⟩

/-- What `_validate_dht_record` returns. -/
inductive AcceptedResult
  | identity (r : IdentityOverwriteResult)
  | provider (r : ProviderWrite)

def AcceptedResult.attributes : AcceptedResult → ResultAttributes
  | .identity r => r.attributes
  | .provider r => r.attributes

/-- The use of the accepted state in `_validate_dht_record` and `put_signed_provider_record`. -/
def usesAcceptedState (envelope : Bytes) (rawDht rawLocal : Option Bytes) : Bool :=
  isMultisignatureEnvelope rt envelope || isMultisignatureValue rt rawDht ||
    isMultisignatureValue rt rawLocal || isProviderWithdrawalEnvelope rt (some envelope) ||
    isProviderWithdrawalEnvelope rt rawDht || isProviderWithdrawalEnvelope rt rawLocal

/-- A server without a durable store takes no Identity envelope beyond a genesis. -/
def requireServableHistory (envelopeCbor : Bytes) (message : String) : Dht Unit := do
  let serverMode ← Coro.reads (·.surroundings.serverMode)
  if serverMode = true ∧ d.durableStore = none ∧
      isMultisignatureEnvelope rt envelopeCbor = true then
    let predecessorHash ← identityPredecessorStateHash rt envelopeCbor
    raiseIf (predecessorHash ≠ none) (historyUnavailable message)

/-- The existing envelope of `_validate_dht_record`. -/
def existingForRecord (kind : RecordKind) (envelopeCbor : Bytes) (rawDht rawLocal : Option Bytes) :
    Py (Option Bytes) :=
  if kind = .identity ∨ usesAcceptedState rt envelopeCbor rawDht rawLocal = true then
    selectNewestEnvelope rt rawDht rawLocal
  else return rawDht

/-- The validation of `_validate_dht_record` over the existing envelope, or over the one of the
write context that is pending. -/
def validateOverExisting (pending : Option IdentityWriteContext) (kind : RecordKind)
    (recordKey envelopeCbor : Bytes) (rawExisting : Option Bytes) : Dht AcceptedResult := do
  match kind with
  | .identity =>
    match pending.filter fun p => p.recordKey = recordKey ∧ p.envelopeCbor = envelopeCbor with
    | some p =>
      return .identity (← validateIdentityOverwrite rt recordKey envelopeCbor
        p.existingEnvelopeCbor p.predecessorChain)
    | none =>
      let history ← durableHistory rt d .identity recordKey
      return .identity (← validateIdentityOverwrite rt recordKey envelopeCbor rawExisting
        (historyEndingAt history rawExisting))
  | .provider =>
    return .provider (← validateProviderOverwrite rt recordKey envelopeCbor rawExisting)

/-- `_validate_dht_record`; `none` when the value is the existing one. -/
def validateDhtRecord (pending : Option IdentityWriteContext) (kadKey : Text)
    (envelopeCbor : Bytes) : Dht (Option AcceptedResult) := do
  let (kind, recordKey) ← parseKey kadKey
  if kind = .identity then
    requireServableHistory rt d envelopeCbor
      "durable Identity history is required to accept post-genesis values on a Registry server"
  let rawDht ← valueStoreGet rt d (utf8 kadKey)
  let rawLocal ← durableGet d kind recordKey
  let rawExisting ← existingForRecord rt kind envelopeCbor rawDht rawLocal
  if rawExisting = some envelopeCbor then return none
  return some (← validateOverExisting rt d pending kind recordKey envelopeCbor rawExisting)

/-- A value that `_prepare_durable_acceptance` has validated. -/
structure PreparedAcceptance where
  kind : RecordKind
  recordKey : Bytes
  envelope : Bytes
  result : AcceptedResult

/-- `_prepare_durable_acceptance`; `localWrite` is `_local_dht_write`. -/
def prepareDurableAcceptance (localWrite : Bool) (pending : Option IdentityWriteContext)
    (key value : Bytes) : Dht (Option PreparedAcceptance) := do
  if localWrite = true ∨ d.durableStore = none then return none
  match (do let kadKey ← decodeUtf8 key; return (kadKey, ← parseKey kadKey) :
      Py (Text × RecordKind × Bytes)) with
  | .error _ => return none
  | .ok (kadKey, kind, recordKey) =>
    match ← validateDhtRecord rt d pending kadKey value with
    | none => return none
    | some result => return some { kind, recordKey, envelope := value, result }

/-- The history `_commit_durable_acceptance` stores with a withdrawal. -/
def tombstoneHistory (previousHistory : Option (List Bytes)) (prior envelope : Bytes) :
    List Bytes :=
  match previousHistory.filter fun history => history.getLast? = some prior with
  | some history => history ++ [envelope]
  | none => [prior, envelope]

/-- `_commit_durable_acceptance`. -/
def commitDurableAcceptance (accepted : Option PreparedAcceptance) : Dht Unit := do
  match accepted with
  | none => return ()
  | some a =>
    if d.durableStore = none then return ()
    if (← durableGet d a.kind a.recordKey) = some a.envelope then return ()
    match a.result with
    | .provider (.withdrawn r) =>
      let prior ← orRaise r.predecessorEnvelopeCbor
        (valueError "Provider tombstone acceptance requires predecessor evidence")
      let previousHistory ← durableHistory rt d a.kind a.recordKey
      durableInstall rt d a.kind a.recordKey a.envelope r.attributes
        (some (tombstoneHistory previousHistory prior a.envelope))
    | result =>
      if a.kind = .identity ∨ isMultisignatureEnvelope rt a.envelope = true then
        durableInstall rt d a.kind a.recordKey a.envelope result.attributes none
      else storePut a.kind a.recordKey a.envelope

/-- `value_store.put` and `put_record` as hooked, in a task with the given contexts. -/
def valueStorePut (localWrite : Bool) (pending : Option IdentityWriteContext) (key value : Bytes) :
    Dht Unit := do
  let accepted ← prepareDurableAcceptance rt d localWrite pending key value
  originalPut key value
  commitDurableAcceptance rt d accepted

/-- A value put by a peer. -/
def inboundPut (key value : Bytes) : Dht Unit := valueStorePut rt d false none key value

/-! ## What `KadDHT` does meanwhile -/

/-- A step of `KadDHT` in a task with the given contexts: a put into its hooked value store, which
never suspends, or anything that leaves the durable store alone. -/
inductive KadStep (localWrite : Bool) (pending : Option IdentityWriteContext) (s t : DhtState) :
    Prop
  | put {key value : Bytes} {x : Py Unit}
      (h : Runs (fun _ _ _ _ => True) (valueStorePut rt d localWrite pending key value) s x t)
  | elsewhere (h : t.durable = s.durable)

/-- What becomes of the state while a request is answered and no other task writes: `get_value`
caches what it finds and `put_value` stores what it sends, through the hooked value store. -/
def KadAnswers : Request → DhtState → DhtState → Prop
  | .getValue _ _, s, t => Relation.ReflTransGen (KadStep rt d false none) s t
  | .putValue _ _ context, s, t => Relation.ReflTransGen (KadStep rt d true context) s t
  | .acceptedLock, s, t | .readerEnvelope _, s, t | .peerEnvelope _ _, s, t
  | .peerHistory _ _, s, t => t.durable = s.durable

end DecentRegistry
