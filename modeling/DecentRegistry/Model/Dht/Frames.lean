import DecentRegistry.Foundations.Leb128
import DecentRegistry.Model.Runtime

/-!
# DHT frames

The framing half of `dht/serving_eligibility.py`: a frame is a payload behind its length, a varint.
`readBoundedDhtFrame` decodes a complete frame, and a `BoundedInboundDHTStream` follows a frame as
it is read in chunks. `varint.encode` is the minimal LEB128 form. The deadlines of the streams are
left out: what a read returns here was returned in time. -/

namespace DecentRegistry

open Fallible PyValue

/-- `varint.encode`. -/
abbrev varintEncode (n : ℕ) : Bytes := Leb128.encode n

/-- The loop of `_decode_varint_prefix`, from a given `value`, `shift` and `index`. -/
def decodeVarintLoop : Bytes → ℕ → ℕ → ℕ → Option (ℕ × ℕ)
  | [], _, _, _ => none
  | byte :: rest, value, shift, index =>
    let value := value ||| (byte.toNat &&& 0x7F) <<< shift
    if byte.toNat < 0x80 then some (value, index + 1)
    else decodeVarintLoop rest value (shift + 7) (index + 1)

/-- `_decode_varint_prefix`: the length and how many bytes it has; `none` for an incomplete
prefix. -/
def decodeVarintPrefix (data : Bytes) : Py (Option (ℕ × ℕ)) :=
  match decodeVarintLoop (data.take 10) 0 0 0 with
  | some decoded => .ok (some decoded)
  | none =>
    if 10 ≤ data.length then .error (valueError "malformed DHT varint length") else .ok none

/-- `_read_bounded_dht_frame`. -/
def readBoundedDhtFrame (frame : Bytes) (maxBytes : ℤ) : Py Bytes := do
  let (length, prefixSize) ←
    orRaise (← decodeVarintPrefix frame) (valueError "truncated DHT frame length")
  raiseIf (varintEncode length ≠ frame.take prefixSize)
    (valueError "non-canonical DHT frame length")
  raiseIf (maxBytes < length) (valueError "oversize DHT frame")
  let payload := frame.drop prefixSize
  raiseIf (payload.length < length) (valueError "truncated DHT frame payload")
  raiseIf (payload.length ≠ length) (valueError "trailing bytes after DHT frame")
  return payload

/-- A call of `read`: the number of bytes asked for, if any is given, and what the proxied stream
answers when it is asked for a number of bytes. -/
structure StreamRead where
  n : Option ℤ
  receive : ℤ → Bytes

/-! ## Inbound streams -/

/-- The reading state of a `BoundedInboundDHTStream`. -/
structure BoundedInboundDHTStream where
  maxBytes : ℤ
  lengthPrefix : Bytes
  length : Option ℕ
  payloadRead : ℕ

namespace BoundedInboundDHTStream

/-- `__init__`. -/
def new (maxBytes : ℤ) : BoundedInboundDHTStream :=
  { maxBytes, lengthPrefix := [], length := none, payloadRead := 0 }

/-- What `read` asks the proxied stream for. -/
def requested (stream : BoundedInboundDHTStream) (n : Option ℤ) : Py ℤ :=
  match n with
  | none => return stream.maxBytes + 11
  | some n => do
    raiseIf (n < 0) (valueError "negative inbound DHT stream read length")
    raiseIf (stream.maxBytes < n) (valueError "oversize inbound DHT frame")
    return n

/-- The end of `read`: the payload read is compared with the declared length. -/
def checkPayload (stream : BoundedInboundDHTStream) (chunk : Bytes) :
    Py Bytes × BoundedInboundDHTStream :=
  match stream.length with
  | some length =>
    if length < stream.payloadRead then
      (.error (valueError "inbound DHT frame exceeds declared length"), stream)
    else (.ok chunk, stream)
  | none => (.ok chunk, stream)

/-- What `read` does with a chunk that ends in the prefix or with it, which was put behind the
prefix read so far. -/
def observePrefix (stream : BoundedInboundDHTStream) (chunk : Bytes) :
    Py Bytes × BoundedInboundDHTStream :=
  match decodeVarintPrefix stream.lengthPrefix with
  | .error e => (.error e, stream)
  | .ok none =>
    if 10 ≤ stream.lengthPrefix.length then
      (.error (valueError "malformed inbound DHT frame length"), stream)
    else (.ok chunk, stream)
  | .ok (some (length, prefixSize)) =>
    if stream.maxBytes < length then
      (.error (valueError "oversize inbound DHT frame"), stream)
    else if varintEncode length ≠ stream.lengthPrefix.take prefixSize then
      (.error (valueError "non-canonical inbound DHT frame length"), stream)
    else
      let payloadRead := stream.lengthPrefix.length - prefixSize
      checkPayload { stream with length := some length, payloadRead } chunk

/-- What `read` does with a chunk, and the state it leaves. -/
def observe (stream : BoundedInboundDHTStream) (chunk : Bytes) :
    Py Bytes × BoundedInboundDHTStream :=
  if stream.maxBytes + 10 < chunk.length then
    (.error (valueError "oversize inbound DHT frame"), stream)
  else match stream.length with
  | none => observePrefix { stream with lengthPrefix := stream.lengthPrefix ++ chunk } chunk
  | some _ => checkPayload { stream with payloadRead := stream.payloadRead + chunk.length } chunk

/-- `read`: the chunk it returns, and the state it leaves, also where it raises. -/
def read (stream : BoundedInboundDHTStream) (r : StreamRead) :
    Py Bytes × BoundedInboundDHTStream :=
  match stream.requested r.n with
  | .error e => (.error e, stream)
  | .ok n => stream.observe (r.receive n)

end BoundedInboundDHTStream

/-! ## What the parsers decode -/

/-- A frame: the minimal varint of the length of the payload, in at most ten bytes, and the
payload. -/
structure IsDhtFrame (maxBytes : ℤ) (frame payload : Bytes) : Prop where
  eq_append : frame = varintEncode payload.length ++ payload
  length_le : (payload.length : ℤ) ≤ maxBytes
  prefix_le : (varintEncode payload.length).length ≤ 10

variable {data rest payload : Bytes} {length size value shift index : ℕ} {maxBytes : ℤ}

theorem or_shiftLeft_eq (h : value < 2 ^ shift) (n : ℕ) :
    value ||| n <<< shift = value + n * 2 ^ shift := by
  rw [Nat.or_comm, ← Nat.shiftLeft_add_eq_or_of_lt h, Nat.shiftLeft_eq, Nat.add_comm]

/-- The loop reads a LEB128 number. -/
theorem decodeVarintLoop_eq (h : value < 2 ^ shift) :
    decodeVarintLoop data value shift index =
      (Leb128.read data).map fun r => (value + r.1 * 2 ^ shift, index + r.2) := by
  induction data generalizing value shift index with
  | nil => rfl
  | cons byte rest ih =>
    have hbyte := byte.toNat_lt
    have hmod : byte.toNat &&& 0x7F = byte.toNat % 128 := Nat.and_two_pow_sub_one_eq_mod _ 7
    rw [decodeVarintLoop, hmod, or_shiftLeft_eq h]
    by_cases hlast : byte.toNat < 128
    · have hbits : byte.toNat % 128 = byte.toNat := Nat.mod_eq_of_lt hlast
      simp [hlast, hbits, Leb128.read_cons_of_lt hlast]
    · have hvalue : value + byte.toNat % 128 * 2 ^ shift < 2 ^ (shift + 7) := by
        have hbits : byte.toNat % 128 + 1 ≤ 128 := Nat.mod_lt _ (by decide)
        have hmul := Nat.mul_le_mul_right (2 ^ shift) hbits
        rw [Nat.add_mul] at hmul
        rw [Nat.pow_add]
        omega
      rw [Leb128.read_cons_of_le (by omega), if_neg hlast, ih hvalue, Option.map_map]
      congr 1
      funext r
      have hbits : byte.toNat % 128 = byte.toNat - 128 := by omega
      simp only [Function.comp_apply, Prod.mk.injEq, hbits]
      constructor
      · ring
      · omega

theorem decodeVarintPrefix_eq_some :
    decodeVarintPrefix data = .ok (some (length, size)) ↔
      Leb128.read data = some (length, size) ∧ size ≤ 10 := by
  have hloop : decodeVarintLoop (data.take 10) 0 0 0 = Leb128.read (data.take 10) := by
    rw [decodeVarintLoop_eq (by decide)]
    simp
  have htake : Leb128.read (data.take 10) = some (length, size) ↔
      Leb128.read data = some (length, size) ∧ size ≤ 10 := by
    constructor
    · intro h
      have hsize := (Leb128.read_size h).2
      have happend := Leb128.read_append h (data.drop 10)
      rw [List.take_append_drop] at happend
      rw [List.length_take] at hsize
      exact ⟨happend, by omega⟩
    · intro h
      exact Leb128.read_take h.1 h.2
  rw [decodeVarintPrefix, hloop, ← htake]
  cases Leb128.read (data.take 10) with
  | none =>
    simp only [reduceCtorEq, iff_false]
    split <;> simp
  | some r => simp

/-- A minimal prefix is decoded, whatever follows it. -/
theorem decodeVarintPrefix_encode (h : (varintEncode length).length ≤ 10) (rest : Bytes) :
    decodeVarintPrefix (varintEncode length ++ rest) =
      .ok (some (length, (varintEncode length).length)) :=
  decodeVarintPrefix_eq_some.2 ⟨Leb128.read_encode_append length rest, h⟩

/-- A decoded prefix that is canonical is the minimal one. -/
theorem decodeVarintPrefix_canonical (h : decodeVarintPrefix data = .ok (some (length, size)))
    (hcanonical : varintEncode length = data.take size) :
    ∃ rest, data = varintEncode length ++ rest ∧ size = (varintEncode length).length ∧
      (varintEncode length).length ≤ 10 := by
  obtain ⟨hread, hsize⟩ := decodeVarintPrefix_eq_some.1 h
  obtain ⟨rest, hdata, hlen⟩ := Leb128.encode_eq_take_iff.1 ⟨hread, hcanonical⟩
  exact ⟨rest, hdata, hlen, hlen ▸ hsize⟩

theorem decodeVarintPrefix_nil : decodeVarintPrefix [] = .ok none := rfl

/-- An incomplete prefix is shorter than ten bytes, and no number is read off it. -/
theorem decodeVarintPrefix_eq_none (h : decodeVarintPrefix data = .ok none) :
    Leb128.read data = none ∧ data.length < 10 := by
  unfold decodeVarintPrefix at h
  split at h
  · cases h
  · rename_i hloop
    split at h
    · cases h
    · rename_i hshort
      rw [List.take_of_length_le (by omega), decodeVarintLoop_eq (by decide)] at hloop
      exact ⟨Option.map_eq_none_iff.1 hloop, by omega⟩

/-- The beginning of a minimal prefix is incomplete. -/
theorem decodeVarintPrefix_of_append_eq (h : (varintEncode length).length ≤ 10)
    (heq : varintEncode length = data ++ rest) (hne : rest ≠ []) :
    decodeVarintPrefix data = .ok none := by
  have hlength : (varintEncode length).length = data.length + rest.length := by
    rw [heq, List.length_append]
  have hpos := List.length_pos_iff.2 hne
  have hread : Leb128.read data = none := by
    cases hdata : Leb128.read data with
    | none => rfl
    | some r =>
      have happend := Leb128.read_append hdata rest
      rw [← heq, Leb128.read_encode] at happend
      have hsize : (varintEncode length).length = r.2 := congrArg Prod.snd (Option.some.inj happend)
      have := (Leb128.read_size hdata).2
      omega
  rw [decodeVarintPrefix, List.take_of_length_le (by omega), decodeVarintLoop_eq (by decide),
    hread, Option.map_none]
  exact if_neg (by omega)

/-- Two minimal prefixes of the same bytes are the same. -/
theorem varintEncode_append_inj {m n : ℕ} {rest' : Bytes}
    (h : varintEncode m ++ rest = varintEncode n ++ rest') : m = n ∧ rest = rest' := by
  have hm := Leb128.read_encode_append m rest
  rw [h, Leb128.read_encode_append] at hm
  obtain ⟨rfl, -⟩ := Prod.mk.inj (Option.some.inj hm)
  exact ⟨rfl, List.append_cancel_left h⟩

/-- **`_read_bounded_dht_frame` decodes the frames.** -/
theorem readBoundedDhtFrame_eq_ok :
    readBoundedDhtFrame data maxBytes = .ok payload ↔ IsDhtFrame maxBytes data payload := by
  simp only [readBoundedDhtFrame, bind_eq_ok, orRaise_eq_ok, raiseIf_eq_ok, pure_eq_ok, not_not,
    not_lt, exists_const, Prod.exists]
  constructor
  · rintro ⟨_, hdecode, length, size, rfl, hcanonical, hmax, -, hlength, rfl⟩
    obtain ⟨rest, rfl, rfl, hsize⟩ := decodeVarintPrefix_canonical hdecode hcanonical
    rw [List.drop_left] at hlength ⊢
    subst hlength
    exact ⟨rfl, hmax, hsize⟩
  · intro h
    obtain ⟨rfl, hmax, hsize⟩ := h
    refine ⟨_, decodeVarintPrefix_encode hsize payload, payload.length, _, rfl, ?_⟩
    rw [List.take_left, List.drop_left]
    exact ⟨rfl, hmax, le_refl _, rfl, rfl⟩

end DecentRegistry
