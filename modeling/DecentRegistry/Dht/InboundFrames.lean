import DecentRegistry.Foundations.Streaming
import DecentRegistry.Model.Dht.Frames

/-!
# Inbound frames in chunks

A `BoundedInboundDHTStream` and `_read_bounded_dht_frame` check the same frame in different orders,
the one as its chunks come in, the other when it is complete. The reads of a stream raise as soon as
the bytes delivered are not `FrameBeginning`, and until then its state counts the bytes delivered
(`readsChunks`). So they all succeed and complete the payload exactly on the frames, under every
division into chunks (`inboundFrame_anyChunking`).
-/

namespace DecentRegistry

open Fallible PyValue Streaming BoundedInboundDHTStream

/-- What a read delivers: the answer to the number of bytes asked for. -/
def StreamRead.chunk (maxBytes : ℤ) (r : StreamRead) : Bytes :=
  r.receive (r.n.getD (maxBytes + 11))

/-- The read asks for a number of bytes that the stream allows, and a chunk of at most `maxBytes`
bytes is delivered. -/
structure StreamRead.Delivers (maxBytes : ℤ) (r : StreamRead) : Prop where
  n_allowed : ∀ n, r.n = some n → 0 ≤ n ∧ n ≤ maxBytes
  length_le : ((r.chunk maxBytes).length : ℤ) ≤ maxBytes

/-- The reads deliver the bytes `data` in chunks of at most `maxBytes` bytes. -/
structure DeliveredBy (maxBytes : ℤ) (data : Bytes) (reads : List StreamRead) : Prop where
  delivers : ∀ r ∈ reads, r.Delivers maxBytes
  flatMap_chunk : reads.flatMap (StreamRead.chunk maxBytes) = data

/-- Bytes with which nothing is wrong yet: an incomplete prefix, or the minimal varint of an allowed
length and no more bytes than it says. -/
inductive FrameBeginning (maxBytes : ℤ) : Bytes → Prop
  | lengthPrefix {read : Bytes} (h : decodeVarintPrefix read = .ok none) :
      FrameBeginning maxBytes read
  | payload {length : ℕ} {payload : Bytes} (hvarint : (varintEncode length).length ≤ 10)
      (hmax : (length : ℤ) ≤ maxBytes) (hpayload : payload.length ≤ length) :
      FrameBeginning maxBytes (varintEncode length ++ payload)

/-- The state of a stream that has read the beginning of a frame. -/
inductive Progress (maxBytes : ℤ) : Bytes → BoundedInboundDHTStream → Prop
  | lengthPrefix {read : Bytes} (h : decodeVarintPrefix read = .ok none) :
      Progress maxBytes read { maxBytes, lengthPrefix := read, length := none, payloadRead := 0 }
  | payload {length : ℕ} {payload lengthPrefix : Bytes}
      (hvarint : (varintEncode length).length ≤ 10) (hmax : (length : ℤ) ≤ maxBytes)
      (hpayload : payload.length ≤ length) :
      Progress maxBytes (varintEncode length ++ payload)
        { maxBytes, lengthPrefix, length := some length, payloadRead := payload.length }

variable {maxBytes : ℤ} {data read rest chunk : Bytes} {stream : BoundedInboundDHTStream}
  {r : StreamRead} {reads reads' : List StreamRead}

/-! ## Beginnings of frames -/

/-- What is the beginning of a frame with more bytes was one before them. -/
theorem FrameBeginning.of_append (h : FrameBeginning maxBytes (read ++ rest)) :
    FrameBeginning maxBytes read := by
  generalize hdata : read ++ rest = data at h
  cases h with
  | lengthPrefix h =>
    obtain ⟨hnone, hlength⟩ := decodeVarintPrefix_eq_none h
    rw [← hdata, List.length_append] at hlength
    apply FrameBeginning.lengthPrefix
    rw [decodeVarintPrefix, List.take_of_length_le (by omega), decodeVarintLoop_eq (by decide)]
    have hread : Leb128.read read = none := by
      cases hread : Leb128.read read with
      | none => rfl
      | some v =>
        rw [← hdata, Leb128.read_append hread] at hnone
        cases hnone
    rw [hread, Option.map_none]
    exact if_neg (by omega)
  | @payload length payload hvarint hmax hpayload =>
    rcases List.append_eq_append_iff.1 hdata with ⟨left, hleft, hrest⟩ | ⟨right, hread, hpay⟩
    · -- The bytes end in the prefix, or with it.
      by_cases hnil : left = []
      · subst hnil
        rw [List.append_nil] at hleft
        have hempty : FrameBeginning maxBytes (varintEncode length ++ []) :=
          .payload hvarint hmax (Nat.zero_le length)
        rwa [List.append_nil, hleft] at hempty
      · exact .lengthPrefix (decodeVarintPrefix_of_append_eq hvarint hleft hnil)
    · subst hread
      have hlength : right.length ≤ length := by
        rw [hpay, List.length_append] at hpayload
        omega
      exact .payload hvarint hmax hlength

/-- A complete prefix begins a frame when it is minimal and allowed, and no more bytes follow. -/
theorem frameBeginning_iff {length size : ℕ}
    (h : decodeVarintPrefix data = .ok (some (length, size))) :
    FrameBeginning maxBytes data ↔ (length : ℤ) ≤ maxBytes ∧
      varintEncode length = data.take size ∧ data.length - size ≤ length := by
  constructor
  · intro hbeginning
    cases hbeginning with
    | lengthPrefix hnone =>
      rw [hnone] at h
      cases h
    | payload hvarint hmax hpayload =>
      rw [decodeVarintPrefix_encode hvarint] at h
      obtain ⟨rfl, rfl⟩ := Prod.mk.inj (Option.some.inj (Except.ok.inj h))
      refine ⟨hmax, List.take_left.symm, ?_⟩
      rw [List.length_append]
      omega
  · rintro ⟨hmax, hcanonical, hpayload⟩
    obtain ⟨rest, rfl, rfl, hvarint⟩ := decodeVarintPrefix_canonical h hcanonical
    rw [List.length_append] at hpayload
    exact .payload hvarint hmax (by omega)

/-- A malformed prefix begins no frame. -/
theorem not_frameBeginning_of_error {e : PyError} (h : decodeVarintPrefix data = .error e) :
    ¬ FrameBeginning maxBytes data := by
  intro hbeginning
  cases hbeginning with
  | lengthPrefix hnone =>
    rw [hnone] at h
    cases h
  | payload hvarint =>
    rw [decodeVarintPrefix_encode hvarint] at h
    cases h

theorem Progress.beginning (h : Progress maxBytes read stream) : FrameBeginning maxBytes read := by
  cases h with
  | lengthPrefix h => exact .lengthPrefix h
  | payload hvarint hmax hpayload => exact .payload hvarint hmax hpayload

theorem Progress.maxBytes_eq (h : Progress maxBytes read stream) : stream.maxBytes = maxBytes := by
  cases h <;> rfl

/-! ## One read -/

/-- A read that delivers a chunk observes it. -/
theorem read_eq_observe (hmax : stream.maxBytes = maxBytes) (hr : r.Delivers maxBytes) :
    stream.read r = stream.observe (r.chunk maxBytes) := by
  subst hmax
  cases hn : r.n with
  | none =>
    simp [BoundedInboundDHTStream.read, requested, StreamRead.chunk, hn, pure, Except.pure]
  | some n =>
    obtain ⟨hnonneg, hle⟩ := hr.n_allowed n hn
    simp [BoundedInboundDHTStream.read, requested, StreamRead.chunk, hn, pure, Except.pure,
      raiseIf_neg (not_lt.2 hnonneg), raiseIf_neg (not_lt.2 hle)]

/-- The comparison at the end of a read. -/
theorem checkPayload_some {length : ℕ} (h : stream.length = some length) :
    stream.checkPayload chunk =
      (if length < stream.payloadRead then
        .error (valueError "inbound DHT frame exceeds declared length")
      else .ok chunk, stream) := by
  rw [checkPayload, h]
  dsimp only
  split <;> rfl

/-- A chunk of the payload. -/
theorem Progress.observe_payload {length : ℕ} {payload lengthPrefix : Bytes}
    (hvarint : (varintEncode length).length ≤ 10) (hmax : (length : ℤ) ≤ maxBytes)
    (hchunk : (chunk.length : ℤ) ≤ maxBytes) :
    let stream : BoundedInboundDHTStream :=
      { maxBytes, lengthPrefix, length := some length, payloadRead := payload.length }
    let read := varintEncode length ++ (payload ++ chunk)
    ((∃ b, (stream.observe chunk).1 = .ok b) ↔ FrameBeginning maxBytes read) ∧
      (FrameBeginning maxBytes read → Progress maxBytes read (stream.observe chunk).2) := by
  intro stream read
  have hbeginning : FrameBeginning maxBytes read ↔ (payload ++ chunk).length ≤ length := by
    constructor
    · intro h
      generalize hread : read = bytes at h
      cases h with
      | lengthPrefix h =>
        rw [← hread, decodeVarintPrefix_encode hvarint] at h
        cases h
      | payload hvarint' hmax' hpayload' =>
        obtain ⟨rfl, rfl⟩ := varintEncode_append_inj hread
        exact hpayload'
    · intro h
      exact .payload hvarint hmax h
  have hobserve : stream.observe chunk =
      (if length < payload.length + chunk.length then
        .error (valueError "inbound DHT frame exceeds declared length") else .ok chunk,
        { stream with payloadRead := payload.length + chunk.length }) := by
    rw [observe, if_neg (by simp only [stream]; omega)]
    exact checkPayload_some rfl
  rw [hobserve, hbeginning, List.length_append]
  constructor
  · constructor
    · rintro ⟨b, hb⟩
      by_contra hlong
      rw [if_pos (by omega)] at hb
      cases hb
    · intro h
      exact ⟨chunk, if_neg (by omega)⟩
  · intro h
    rw [← List.length_append] at h ⊢
    exact .payload hvarint hmax h

/-- A chunk that goes on with the prefix. -/
theorem Progress.observe_lengthPrefix (read : Bytes) (hchunk : (chunk.length : ℤ) ≤ maxBytes) :
    let stream : BoundedInboundDHTStream :=
      { maxBytes, lengthPrefix := read, length := none, payloadRead := 0 }
    ((∃ b, (stream.observe chunk).1 = .ok b) ↔ FrameBeginning maxBytes (read ++ chunk)) ∧
      (FrameBeginning maxBytes (read ++ chunk) →
        Progress maxBytes (read ++ chunk) (stream.observe chunk).2) := by
  intro stream
  have hobserve : stream.observe chunk =
      observePrefix { stream with lengthPrefix := read ++ chunk } chunk := by
    rw [observe, if_neg (by simp only [stream]; omega)]
  rw [hobserve, observePrefix]
  cases hdecode : decodeVarintPrefix (read ++ chunk) with
  | error e =>
    have hnot : ¬FrameBeginning maxBytes (read ++ chunk) := not_frameBeginning_of_error hdecode
    simp [hnot]
  | ok decoded =>
    cases decoded with
    | none =>
      have hlength := (decodeVarintPrefix_eq_none hdecode).2
      have hbeginning : FrameBeginning maxBytes (read ++ chunk) := .lengthPrefix hdecode
      dsimp only
      rw [if_neg (by omega)]
      exact ⟨⟨fun _ => hbeginning, fun _ => ⟨chunk, rfl⟩⟩, fun _ => .lengthPrefix hdecode⟩
    | some decoded =>
      obtain ⟨length, size⟩ := decoded
      rw [frameBeginning_iff hdecode]
      dsimp only
      by_cases hmax : maxBytes < length
      · rw [if_pos hmax]
        simp [not_le.2 hmax]
      by_cases hcanonical : varintEncode length = (read ++ chunk).take size
      · obtain ⟨rest, hdata, rfl, hvarint⟩ := decodeVarintPrefix_canonical hdecode hcanonical
        have hsize : (read ++ chunk).length - (varintEncode length).length = rest.length := by
          rw [hdata, List.length_append]
          omega
        rw [if_neg hmax, if_neg (not_not.2 hcanonical), checkPayload_some rfl, hsize]
        constructor
        · constructor
          · rintro ⟨b, hb⟩
            refine ⟨not_lt.1 hmax, hcanonical, ?_⟩
            by_contra hlong
            rw [if_pos (by simpa using hlong)] at hb
            cases hb
          · rintro ⟨-, -, hpayload⟩
            exact ⟨chunk, if_neg (not_lt.2 hpayload)⟩
        · rintro ⟨-, -, hpayload⟩
          rw [hdata]
          exact .payload hvarint (not_lt.1 hmax) hpayload
      · rw [if_neg hmax, if_pos hcanonical]
        simp [hcanonical]

/-- **The stream reads in chunks**: a read succeeds exactly when the bytes delivered so far begin a
frame, and then its state is determined by them. -/
theorem readsChunks (maxBytes : ℤ) :
    ReadsChunks BoundedInboundDHTStream.read (StreamRead.chunk maxBytes)
      (StreamRead.Delivers maxBytes) (fun outcome => ∃ b, outcome = .ok b) (Progress maxBytes)
      (FrameBeginning maxBytes) where
  of_append read rest h := h.of_append
  admitted read stream h := h.beginning
  accepts_iff read stream r h hr := by
    rw [read_eq_observe h.maxBytes_eq hr]
    cases h with
    | lengthPrefix => exact (Progress.observe_lengthPrefix read hr.length_le).1
    | payload hvarint hmax =>
      rw [List.append_assoc]
      exact (Progress.observe_payload hvarint hmax hr.length_le).1
  keeps read stream r h hr hbeginning := by
    rw [read_eq_observe h.maxBytes_eq hr]
    cases h with
    | lengthPrefix => exact (Progress.observe_lengthPrefix read hr.length_le).2 hbeginning
    | payload hvarint hmax =>
      rw [List.append_assoc] at hbeginning ⊢
      exact (Progress.observe_payload hvarint hmax hr.length_le).2 hbeginning

/-! ## Streams and frames -/

/-- The stream after some reads. -/
def inboundAfter (maxBytes : ℤ) (reads : List StreamRead) : BoundedInboundDHTStream :=
  after BoundedInboundDHTStream.read (.new maxBytes) reads

/-- What some reads of a new stream return. -/
def inboundOutcomes (maxBytes : ℤ) (reads : List StreamRead) : List (Py Bytes) :=
  outcomes BoundedInboundDHTStream.read (.new maxBytes) reads

/-- The reads all succeed, and end with exactly the declared payload length read. -/
def ReadsFrame (maxBytes : ℤ) (reads : List StreamRead) : Prop :=
  (∀ outcome ∈ inboundOutcomes maxBytes reads, ∃ chunk, outcome = .ok chunk) ∧
    (inboundAfter maxBytes reads).length = some (inboundAfter maxBytes reads).payloadRead

/-- Some read raises. -/
def SomeReadRaises (maxBytes : ℤ) (reads : List StreamRead) : Prop :=
  ∃ outcome ∈ inboundOutcomes maxBytes reads, ∃ e, outcome = .error e

theorem progress_new (maxBytes : ℤ) : Progress maxBytes [] (.new maxBytes) :=
  .lengthPrefix decodeVarintPrefix_nil

/-- All reads succeed exactly when the bytes delivered begin a frame. -/
theorem DeliveredBy.forall_ok_iff (h : DeliveredBy maxBytes data reads) :
    (∀ outcome ∈ inboundOutcomes maxBytes reads, ∃ chunk, outcome = .ok chunk) ↔
      FrameBeginning maxBytes data := by
  have hall := (readsChunks maxBytes).forall_accepts_iff (progress_new maxBytes) h.delivers
  rwa [List.nil_append, h.flatMap_chunk] at hall

theorem DeliveredBy.someReadRaises_iff (h : DeliveredBy maxBytes data reads) :
    SomeReadRaises maxBytes reads ↔ ¬ FrameBeginning maxBytes data := by
  rw [← h.forall_ok_iff]
  constructor
  · rintro ⟨outcome, hmem, e, rfl⟩ hall
    obtain ⟨chunk, hchunk⟩ := hall _ hmem
    cases hchunk
  · intro hnot
    by_contra hnone
    apply hnot
    intro outcome hmem
    rcases raises_or_returns outcome with ⟨e, he⟩ | hok
    · exact absurd ⟨outcome, hmem, e, he⟩ hnone
    · exact hok

/-- The reads complete a frame exactly on the frames. -/
theorem DeliveredBy.readsFrame_iff (h : DeliveredBy maxBytes data reads) :
    ReadsFrame maxBytes reads ↔ ∃ payload, IsDhtFrame maxBytes data payload := by
  have hafter : FrameBeginning maxBytes data →
      Progress maxBytes data (inboundAfter maxBytes reads) := by
    intro hbeginning
    have hinv := (readsChunks maxBytes).inv_of_admitted (progress_new maxBytes) h.delivers
    rw [List.nil_append, h.flatMap_chunk] at hinv
    exact hinv hbeginning
  rw [ReadsFrame, h.forall_ok_iff]
  generalize inboundAfter maxBytes reads = stream at hafter
  constructor
  · rintro ⟨hbeginning, hcomplete⟩
    cases hafter hbeginning with
    | lengthPrefix => cases hcomplete
    | @payload length payload lengthPrefix hvarint hmax hpayload =>
      obtain rfl : length = payload.length := Option.some.inj hcomplete
      exact ⟨payload, rfl, hmax, hvarint⟩
  · rintro ⟨payload, rfl, hmax, hvarint⟩
    have hbeginning : FrameBeginning maxBytes (varintEncode payload.length ++ payload) :=
      .payload hvarint hmax (le_refl _)
    refine ⟨hbeginning, ?_⟩
    generalize hdata : varintEncode payload.length ++ payload = bytes at *
    cases hafter hbeginning with
    | lengthPrefix hnone =>
      rw [← hdata, decodeVarintPrefix_encode hvarint] at hnone
      cases hnone
    | payload =>
      obtain ⟨hlength, rfl⟩ := varintEncode_append_inj hdata
      rw [hlength]

/-- A frame of fewer than `2 ^ 70` bytes: its length has a minimal varint of at most ten bytes. -/
theorem exists_isDhtFrame_iff (hdata : data.length < 2 ^ 70) :
    (∃ payload, IsDhtFrame maxBytes data payload) ↔ ∃ (length : ℕ) (payload : Bytes),
      (length : ℤ) ≤ maxBytes ∧ payload.length = length ∧
        data = varintEncode length ++ payload := by
  constructor
  · rintro ⟨payload, heq, hmax, -⟩
    exact ⟨payload.length, payload, hmax, rfl, heq⟩
  · rintro ⟨length, payload, hmax, rfl, rfl⟩
    refine ⟨payload, rfl, hmax, Leb128.length_encode_le 9 ?_⟩
    have hpow : (128 : ℕ) ^ (9 + 1) = 2 ^ 70 := by norm_num
    rw [List.length_append] at hdata
    omega

/-- **Streaming and one-shot parsing agree under every chunking.** The reads of `data` in any chunks
all succeed and complete the declared payload if and only if `_read_bounded_dht_frame` returns a
payload, which it does exactly for the minimal varint of an allowed length and that many bytes; and
whether some read raises is the same for all divisions of `data`. A varint has at most ten bytes
here, as many as every length below `2 ^ 70` needs: for shorter `data`, and no byte string is
longer, nothing more is asked of it. -/
theorem inboundFrame_anyChunking (maxBytes : ℤ) (data : Bytes) (reads : List StreamRead)
    (h : DeliveredBy maxBytes data reads) :
    (ReadsFrame maxBytes reads ↔ ∃ payload, readBoundedDhtFrame data maxBytes = .ok payload) ∧
    ((∃ payload, readBoundedDhtFrame data maxBytes = .ok payload) ↔
      ∃ (length : ℕ) (payload : Bytes), (length : ℤ) ≤ maxBytes ∧ payload.length = length ∧
        data = varintEncode length ++ payload ∧ (varintEncode length).length ≤ 10) ∧
    (data.length < 2 ^ 70 →
      ((∃ payload, readBoundedDhtFrame data maxBytes = .ok payload) ↔
        ∃ (length : ℕ) (payload : Bytes), (length : ℤ) ≤ maxBytes ∧ payload.length = length ∧
          data = varintEncode length ++ payload)) ∧
    ∀ reads', DeliveredBy maxBytes data reads' →
      (SomeReadRaises maxBytes reads ↔ SomeReadRaises maxBytes reads') := by
  simp only [readBoundedDhtFrame_eq_ok]
  refine ⟨h.readsFrame_iff, ?_, exists_isDhtFrame_iff, ?_⟩
  · constructor
    · rintro ⟨payload, heq, hmax, hvarint⟩
      exact ⟨payload.length, payload, hmax, rfl, heq, hvarint⟩
    · rintro ⟨length, payload, hmax, rfl, heq, hvarint⟩
      exact ⟨payload, heq, hmax, hvarint⟩
  · intro reads' h'
    rw [h.someReadRaises_iff, h'.someReadRaises_iff]

/-- A frame of two bytes of payload, read byte by byte. -/
theorem sampleFrame_byteByByte :
    ReadsFrame 8 [⟨some 1, fun _ => [2]⟩, ⟨some 1, fun _ => [8]⟩, ⟨some 1, fun _ => [4]⟩] := by
  have hdelivered : DeliveredBy 8 [2, 8, 4]
      [⟨some 1, fun _ => [2]⟩, ⟨some 1, fun _ => [8]⟩, ⟨some 1, fun _ => [4]⟩] := by
    constructor
    · intro r hr
      simp only [List.mem_cons, List.not_mem_nil, or_false] at hr
      rcases hr with rfl | rfl | rfl <;> exact ⟨by simp, by decide⟩
    · rfl
  have hframe : readBoundedDhtFrame [2, 8, 4] 8 = .ok [8, 4] := by
    apply readBoundedDhtFrame_eq_ok.2
    have hvarint : varintEncode 2 = [2] := Leb128.encode_of_lt (by decide)
    exact ⟨by simp [hvarint], by decide, by simp [hvarint]⟩
  exact (inboundFrame_anyChunking 8 [2, 8, 4] _ hdelivered).1.2 ⟨_, hframe⟩

end DecentRegistry
