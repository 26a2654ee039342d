import DecentRegistry.Model.Dht.Frames

/-!
# Outbound streams

The outbound half of `dht/serving_eligibility.py`: what makes a response to a request a proof of
serving (`validateDhtResponse`, `containsTypeField`), and the `BoundedDHTStream` that follows a
request as it is written and its response as it is read. Protobuf messages, multihashes and
addresses are those of other packages, and `DhtPackages` is what the stream calls of them. -/

namespace DecentRegistry

open Fallible PyValue

/-! ## Messages -/

/-- `Message.Peer`. -/
structure DhtPeer where
  id : Bytes
  addrs : List Bytes

/-- A parsed `Message`. `record` is the key of its record, if it has one. -/
structure DhtMessage where
  byteSize : ℕ
  type : ℤ
  key : Bytes
  record : Option Bytes
  closerPeers : List DhtPeer
  providerPeers : List DhtPeer

namespace DhtMessage

/-- The values of `Message.type`. -/
def putValue : ℤ := 0
def getValue : ℤ := 1
def addProvider : ℤ := 2
def getProviders : ℤ := 3
def findNode : ℤ := 4
def ping : ℤ := 5

def validTypes : List ℤ := [putValue, getValue, addProvider, getProviders, findNode, ping]

end DhtMessage

/-- What a stream calls of other packages, and the two callables it is given. -/
structure DhtPackages where
  /-- `Message.ParseFromString`; `none` when it raises. -/
  parse : Bytes → Option DhtMessage
  /-- `multihash.decode`. -/
  multihashDecode : Bytes → Py Unit
  /-- `Multiaddr`. -/
  multiaddr : Bytes → Py Unit
  /-- `validate_response`. -/
  validateResponse : Option (Bytes → DhtMessage → Py Bool)
  /-- How a call of `on_valid_response` ends. -/
  onValidResponse : Bytes → Py Unit

open DhtMessage

/-- `_validate_dht_response`. -/
def validateDhtResponse (pkg : DhtPackages) (request response : DhtMessage) : Py Unit := do
  raiseIf (response.byteSize = 0) (valueError "DHT response type is missing")
  raiseIf (request.type ≠ response.type)
    (valueError "DHT response type does not match request type")
  raiseIf (request.type = ping)
    (valueError "DHT PING is not serving proof for this implementation")
  if request.type = putValue then
    raiseIf (request.record ≠ some response.key)
      (valueError "DHT PUT_VALUE response did not acknowledge the record key")
  else
    raiseIf (request.type ∈ [getValue, addProvider, getProviders] ∧ response.key ≠ request.key)
      (valueError "DHT response key does not match request key")
  raiseIf (request.type = getValue ∧ response.record.any (· ≠ request.key))
    (valueError "DHT value record key does not match request key")
  (response.closerPeers ++ response.providerPeers).forM fun peer => do
    pkg.multihashDecode peer.id
    peer.addrs.forM pkg.multiaddr

/-- Where the field behind a key ends; `none` where it is truncated, or of no known wire type. -/
def fieldEnd (payload : Bytes) (wireType offset : ℕ) : Py (Option ℕ) :=
  match wireType with
  | 0 => do
    return (← decodeVarintPrefix (payload.drop offset)).map fun value => offset + value.2
  | 1 => return some (offset + 8)
  | 2 => do
    return (← decodeVarintPrefix (payload.drop offset)).map fun length =>
      offset + length.2 + length.1
  | 5 => return some (offset + 4)
  | _ => return none

/-- The loop of `_contains_type_field` from an offset, for at most as many fields as the fuel. -/
def containsTypeFieldFrom (payload : Bytes) : ℕ → ℕ → Py Bool
  | 0, _ => return false
  | fuel + 1, offset =>
    if payload.length ≤ offset then return false
    else do
      match ← decodeVarintPrefix (payload.drop offset) with
      | none => return false
      | some (key, keySize) =>
        let fieldNumber := key >>> 3
        let wireType := key &&& 7
        let offset := offset + keySize
        if fieldNumber = 1 ∧ wireType = 0 then
          match ← decodeVarintPrefix (payload.drop offset) with
          | none => return false
          | some (value, _) => return decide ((value : ℤ) ∈ validTypes)
        else
          match ← fieldEnd payload wireType offset with
          | none => return false
          | some offset =>
            if payload.length < offset then return false
            else containsTypeFieldFrom payload fuel offset

/-- `_contains_type_field`. Every field has a byte at least, so the loop ends before the fuel does
(`containsTypeField_of_le`). -/
def containsTypeField (payload : Bytes) : Py Bool :=
  containsTypeFieldFrom payload payload.length 0

/-- The checks that `_observe_response` makes of a complete payload, before it reports any failure
as an invalid frame. -/
def checkResponse (pkg : DhtPackages) (peerId : Bytes) (request : DhtMessage) (payload : Bytes) :
    Py Unit := do
  let typed ← containsTypeField payload
  raiseIf (typed = false) (valueError "DHT response omitted its message type")
  let response ← orRaise (pkg.parse payload) ⟨.external, "Error parsing message"⟩
  validateDhtResponse pkg request response
  match pkg.validateResponse with
  | none => return ()
  | some validateResponse => do
    let valid ← validateResponse peerId response
    raiseIf (valid = false) (valueError "DHT response failed signed-record validation")

/-! ## Streams -/

/-- The state of a `BoundedDHTStream`. -/
structure BoundedDHTStream where
  peerId : Bytes
  maxBytes : ℤ
  request : Bytes
  requestMessage : Option DhtMessage
  responsePrefix : Bytes
  responseLength : Option ℕ
  responsePayload : Bytes
  proofRecorded : Bool
  tracking : Bool
  writtenBytes : ℕ

/-- How a read ends: what it returns, and the calls of `on_valid_response` it makes, by the peer it
passes. -/
structure ReadOutcome where
  result : Py Bytes
  proofs : List Bytes

namespace BoundedDHTStream

/-- `__init__`. -/
def new (peerId : Bytes) (maxBytes : ℤ) : BoundedDHTStream :=
  { peerId, maxBytes, request := [], requestMessage := none, responsePrefix := [],
    responseLength := none, responsePayload := [], proofRecorded := false, tracking := true,
    writtenBytes := 0 }

variable (pkg : DhtPackages)

/-- What `_observe_request` makes of a complete request. -/
def observeRequestPayload (stream : BoundedDHTStream) (payload : Bytes) :
    Py Unit × BoundedDHTStream :=
  match pkg.parse payload with
  | none => (.ok (), { stream with tracking := false })
  | some request =>
    if request.byteSize = 0 then (.ok (), { stream with tracking := false })
    else match containsTypeField payload with
      | .error e => (.error e, stream)
      | .ok true => (.ok (), { stream with requestMessage := some request })
      | .ok false => (.ok (), { stream with tracking := false })

/-- `_observe_request`. -/
def observeRequest (stream : BoundedDHTStream) : Py Unit × BoundedDHTStream :=
  match decodeVarintPrefix stream.request with
  | .error e => (.error e, stream)
  | .ok none => (.ok (), stream)
  | .ok (some (length, prefixSize)) =>
    if varintEncode length ≠ stream.request.take prefixSize then
      (.error (valueError "non-canonical outbound DHT frame length"), stream)
    else if length = 0 then (.ok (), { stream with tracking := false })
    else if stream.maxBytes < length then
      (.error (valueError "oversize outbound DHT frame"), stream)
    else if stream.request.length < prefixSize + length then (.ok (), stream)
    else if stream.request.length ≠ prefixSize + length then
      (.ok (), { stream with tracking := false })
    else observeRequestPayload pkg stream (stream.request.drop prefixSize)

/-- `write`, up to the write of the proxied stream: whether it is reached, and the state. -/
def write (stream : BoundedDHTStream) (data : Bytes) : Py Unit × BoundedDHTStream :=
  let stream : BoundedDHTStream :=
    { stream with writtenBytes := stream.writtenBytes + data.length }
  if stream.maxBytes + 10 < stream.writtenBytes then
    (.error (valueError "oversize outbound DHT frame"), stream)
  else if stream.tracking then
    if stream.maxBytes + 10 < stream.request.length + data.length then
      (.error (valueError "oversize outbound DHT frame"), stream)
    else observeRequest pkg { stream with request := stream.request ++ data }
  else (.ok (), stream)

/-- The end of `_observe_response`, once the length of the response is known. -/
def observePayload (stream : BoundedDHTStream) (length : ℕ) (chunk : Bytes) :
    ReadOutcome × BoundedDHTStream :=
  if length < stream.responsePayload.length then
    (⟨.error (valueError "DHT response exceeds declared frame length"), []⟩, stream)
  else if stream.responsePayload.length ≠ length ∨ stream.proofRecorded then
    (⟨.ok chunk, []⟩, stream)
  else match stream.requestMessage with
  | none => (⟨.error (valueError "invalid DHT response frame"), []⟩, stream)
  | some request =>
    match checkResponse pkg stream.peerId request stream.responsePayload with
    | .error _ => (⟨.error (valueError "invalid DHT response frame"), []⟩, stream)
    | .ok () =>
      (⟨(fun _ => chunk) <$> pkg.onValidResponse stream.peerId, [stream.peerId]⟩,
        { stream with proofRecorded := true })

/-- `_observe_response` of a chunk that ends in the prefix or with it, which was put behind the
prefix read so far. -/
def observeResponsePrefix (stream : BoundedDHTStream) (chunk : Bytes) :
    ReadOutcome × BoundedDHTStream :=
  match decodeVarintPrefix stream.responsePrefix with
  | .error e => (⟨.error e, []⟩, stream)
  | .ok none =>
    if 10 < stream.responsePrefix.length then
      (⟨.error (valueError "malformed DHT response length"), []⟩, stream)
    else (⟨.ok chunk, []⟩, stream)
  | .ok (some (length, prefixSize)) =>
    if varintEncode length ≠ stream.responsePrefix.take prefixSize then
      (⟨.error (valueError "non-canonical DHT response length"), []⟩, stream)
    else if stream.maxBytes < length then
      (⟨.error (valueError "oversize DHT response"), []⟩, stream)
    else
      let remainder := stream.responsePrefix.drop prefixSize
      observePayload pkg
        { stream with
          responseLength := some length
          responsePrefix := []
          responsePayload := stream.responsePayload ++ remainder } length chunk

/-- `_observe_response`, and the return of `read` behind it. -/
def observeResponse (stream : BoundedDHTStream) (chunk : Bytes) : ReadOutcome × BoundedDHTStream :=
  match stream.responseLength with
  | none =>
    observeResponsePrefix pkg { stream with responsePrefix := stream.responsePrefix ++ chunk } chunk
  | some length =>
    observePayload pkg
      { stream with responsePayload := stream.responsePayload ++ chunk } length chunk

/-- What `read` asks the proxied stream for. -/
def requested (stream : BoundedDHTStream) (n : Option ℤ) : Py ℤ :=
  match n with
  | none => return stream.maxBytes + 1
  | some n => do
    raiseIf (n < 0) (valueError "negative DHT stream read length")
    raiseIf (stream.maxBytes < n) (valueError "oversize DHT frame read")
    return n

/-- `read`: how it ends, and the state it leaves, also where it raises. -/
def read (stream : BoundedDHTStream) (r : StreamRead) : ReadOutcome × BoundedDHTStream :=
  match stream.requested r.n with
  | .error e => (⟨.error e, []⟩, stream)
  | .ok n =>
    let chunk := r.receive n
    if stream.maxBytes + 1 < chunk.length then
      (⟨.error (valueError "oversize DHT frame read"), []⟩, stream)
    else if stream.tracking ∧ stream.requestMessage.isSome ∧ chunk ≠ [] then
      observeResponse pkg stream chunk
    else (⟨.ok chunk, []⟩, stream)

end BoundedDHTStream

/-! ## The fuel of the field loop -/

variable {payload : Bytes} {offset fuel : ℕ}

/-- A key that is decoded has a byte at least. -/
theorem decodeVarintPrefix_size_pos {data : Bytes} {value size : ℕ}
    (h : decodeVarintPrefix data = .ok (some (value, size))) : 0 < size :=
  (Leb128.read_size (decodeVarintPrefix_eq_some.1 h).1).1

/-- A field ends behind its key. -/
theorem le_of_fieldEnd {wireType next : ℕ}
    (h : fieldEnd payload wireType offset = .ok (some next)) :
    offset ≤ next := by
  unfold fieldEnd at h
  split at h
  · simp only [bind_eq_ok, pure_eq_ok, Option.map_eq_some_iff] at h
    obtain ⟨_, -, value, -, rfl⟩ := h
    omega
  · simp only [pure_eq_ok, Option.some.injEq] at h
    omega
  · simp only [bind_eq_ok, pure_eq_ok, Option.map_eq_some_iff] at h
    obtain ⟨_, -, value, -, rfl⟩ := h
    omega
  · simp only [pure_eq_ok, Option.some.injEq] at h
    omega
  · simp at h

/-- Fuel for the bytes left is enough. -/
theorem containsTypeFieldFrom_succ (h : payload.length ≤ offset + fuel) :
    containsTypeFieldFrom payload (fuel + 1) offset =
      containsTypeFieldFrom payload fuel offset := by
  induction fuel generalizing offset with
  | zero =>
    have hend : payload.length ≤ offset := by omega
    simp only [containsTypeFieldFrom, if_pos hend]
  | succ fuel ih =>
    rw [containsTypeFieldFrom, containsTypeFieldFrom]
    cases hkey : decodeVarintPrefix (payload.drop offset) with
    | error e => rfl
    | ok decoded =>
      obtain _ | ⟨key, keySize⟩ := decoded
      · rfl
      have hpos := decodeVarintPrefix_size_pos hkey
      cases hend : fieldEnd payload (key &&& 7) (offset + keySize) with
      | error e => simp only [ok_bind, hend, error_bind]
      | ok next =>
        obtain _ | next := next
        · simp only [ok_bind, hend]
        have hle := le_of_fieldEnd hend
        simp only [ok_bind, hend, ih (by omega : payload.length ≤ next + fuel)]

/-- The loop of `_contains_type_field` never runs out of fuel: more of it makes no difference. -/
theorem containsTypeField_of_le (h : payload.length ≤ fuel) :
    containsTypeFieldFrom payload fuel 0 = containsTypeField payload := by
  obtain ⟨more, rfl⟩ := Nat.exists_eq_add_of_le h
  induction more with
  | zero => rfl
  | succ more ih =>
    rw [← Nat.add_assoc, containsTypeFieldFrom_succ (by omega), ih (by omega)]

end DecentRegistry
