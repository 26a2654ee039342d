import DecentRegistry.Dht.InboundFrames
import DecentRegistry.Model.Dht.ResponseStream

/-!
# Serving proofs

A `BoundedDHTStream` reports a peer as serving when it has read a complete valid response to the
request that was written. The request is known once its frame is written, in whatever parts
(`after_writes`), and from then on the state of the stream is determined by the bytes read
(`Following`), except that it remembers whether it has reported. A read reports exactly when it ends
at the end of a valid frame (`servingProof_recorded`).
-/

namespace DecentRegistry

open Fallible PyValue Streaming BoundedDHTStream

/-! ## Requests and responses -/

/-- A complete canonical frame of a request that has a type. -/
structure IsTypedRequest (pkg : DhtPackages) (maxBytes : ℤ) (frame payload : Bytes)
    (request : DhtMessage) : Prop where
  isFrame : IsDhtFrame maxBytes frame payload
  parse : pkg.parse payload = some request
  byteSize_ne_zero : request.byteSize ≠ 0
  typed : containsTypeField payload = .ok true

/-- A payload that proves serving: it carries the type field, parses, answers the request and passes
the check of its signed records. -/
structure IsProof (pkg : DhtPackages) (peerId : Bytes) (request : DhtMessage) (payload : Bytes)
    (response : DhtMessage) : Prop where
  typed : containsTypeField payload = .ok true
  parse : pkg.parse payload = some response
  answers : validateDhtResponse pkg request response = .ok ()
  signed : ∀ validateResponse, pkg.validateResponse = some validateResponse →
    validateResponse peerId response = .ok true

/-- The bytes are exactly one frame, and its payload proves serving. -/
def IsProofFrame (pkg : DhtPackages) (peerId : Bytes) (maxBytes : ℤ) (request : DhtMessage)
    (data : Bytes) : Prop :=
  ∃ payload response, IsDhtFrame maxBytes data payload ∧
    IsProof pkg peerId request payload response

/-- The proxied stream answers with no more bytes than it is asked for. -/
def StreamRead.Honest (r : StreamRead) : Prop := ∀ n, 0 ≤ n → ((r.receive n).length : ℤ) ≤ n

/-- The bytes a read takes from the proxied stream: none where it refuses the number asked for. -/
def StreamRead.response (maxBytes : ℤ) (r : StreamRead) : Bytes :=
  match r.n with
  | none => r.receive (maxBytes + 1)
  | some n => if 0 ≤ n ∧ n ≤ maxBytes then r.receive n else []

/-- The response bytes of some reads. -/
def responseBytes (maxBytes : ℤ) (reads : List StreamRead) : Bytes :=
  reads.flatMap (StreamRead.response maxBytes)

variable {pkg : DhtPackages} {peerId frame payload read chunk data : Bytes} {maxBytes : ℤ}
  {request response : DhtMessage} {stream : BoundedDHTStream} {r : StreamRead} {length : ℕ}

/-- The checks of a complete response pass on the payloads that prove serving. -/
theorem checkResponse_eq_ok :
    checkResponse pkg peerId request payload = .ok () ↔
      ∃ response, IsProof pkg peerId request payload response := by
  simp only [checkResponse, bind_eq_ok, raiseIf_eq_ok, orRaise_eq_ok, exists_const,
    Bool.not_eq_false]
  constructor
  · rintro ⟨_, htyped, rfl, response, hparse, ⟨⟩, hanswers, hsigned⟩
    refine ⟨response, htyped, hparse, hanswers, ?_⟩
    intro validateResponse hvalidate
    simp only [hvalidate, bind_eq_ok, raiseIf_eq_ok, Bool.not_eq_false] at hsigned
    obtain ⟨_, hvalid, rfl⟩ := hsigned
    exact hvalid
  · rintro ⟨response, h⟩
    refine ⟨true, h.typed, rfl, response, h.parse, (), h.answers, ?_⟩
    cases hvalidate : pkg.validateResponse with
    | none => rfl
    | some validateResponse =>
      simp only [bind_eq_ok, raiseIf_eq_ok, Bool.not_eq_false]
      exact ⟨true, h.signed _ hvalidate, rfl⟩

/-! ## Writing the request -/

/-- A write within the bounds is observed. -/
theorem write_eq_observeRequest (htracking : stream.tracking = true)
    (hwritten : ((stream.writtenBytes + data.length : ℕ) : ℤ) ≤ stream.maxBytes + 10)
    (hrequest : ((stream.request.length + data.length : ℕ) : ℤ) ≤ stream.maxBytes + 10) :
    write pkg stream data = observeRequest pkg { stream with
      request := stream.request ++ data
      writtenBytes := stream.writtenBytes + data.length } := by
  push_cast at hwritten hrequest
  simp only [write, htracking, if_true, Nat.cast_add]
  rw [if_neg (by omega), if_neg (by omega)]

/-- A payload that has the type field is not empty. -/
theorem IsTypedRequest.length_ne_zero {maxBytes : ℤ}
    (h : IsTypedRequest pkg maxBytes frame payload request) : payload.length ≠ 0 := by
  intro hnil
  have htyped := h.typed
  rw [List.length_eq_zero_iff.1 hnil] at htyped
  cases htyped

/-- Nothing is known of a request that is not complete. -/
theorem observeRequest_incomplete (h : IsTypedRequest pkg stream.maxBytes frame payload request)
    {rest : Bytes} (hframe : frame = stream.request ++ rest) (hrest : rest ≠ []) :
    observeRequest pkg stream = (.ok (), stream) := by
  obtain ⟨heq, hmax, hvarint⟩ := h.isFrame
  rw [heq] at hframe
  have hpayload : payload.length ≠ 0 := h.length_ne_zero
  have hpos := List.length_pos_iff.2 hrest
  rcases List.append_eq_append_iff.1 hframe with ⟨right, hrequest, hpay⟩ | ⟨left, henc, hpay⟩
  · have hlength : payload.length = right.length + rest.length := by
      rw [hpay, List.length_append]
    rw [observeRequest, hrequest, decodeVarintPrefix_encode hvarint]
    simp only [List.take_left, ne_eq, not_true_eq_false, if_false, List.length_append]
    rw [if_neg hpayload, if_neg (by omega), if_pos (by omega)]
  · by_cases hnil : left = []
    · subst hnil
      rw [List.append_nil] at henc
      have hdecode := decodeVarintPrefix_encode hvarint []
      rw [List.append_nil] at hdecode
      rw [observeRequest, ← henc, hdecode]
      simp only [List.take_length, ne_eq, not_true_eq_false, if_false]
      rw [if_neg hpayload, if_neg (by omega), if_pos (by omega)]
    · rw [observeRequest, decodeVarintPrefix_of_append_eq hvarint henc hnil]

/-- The request is known once its frame is complete. -/
theorem observeRequest_complete (h : IsTypedRequest pkg stream.maxBytes frame payload request)
    (hframe : stream.request = frame) :
    observeRequest pkg stream = (.ok (), { stream with requestMessage := some request }) := by
  obtain ⟨heq, hmax, hvarint⟩ := h.isFrame
  have hpayload : payload.length ≠ 0 := h.length_ne_zero
  rw [observeRequest, hframe, heq, decodeVarintPrefix_encode hvarint]
  simp only [List.take_left, List.drop_left, ne_eq, not_true_eq_false, if_false,
    List.length_append, lt_irrefl]
  rw [if_neg hpayload, if_neg (by omega), observeRequestPayload, h.parse]
  simp only [h.byteSize_ne_zero, if_false, h.typed]
  rw [hframe, heq]

/-- The stream after the first bytes of a request frame. -/
def requestState (peerId : Bytes) (maxBytes : ℤ) (frame : Bytes) (request : DhtMessage)
    (written : Bytes) : BoundedDHTStream :=
  { new peerId maxBytes with
    request := written
    requestMessage := if written = frame then some request else none
    writtenBytes := written.length }

/-- A write of more of the request frame is passed on. -/
theorem write_requestState (h : IsTypedRequest pkg maxBytes frame payload request)
    {written data rest : Bytes} (hframe : frame = written ++ data ++ rest) :
    write pkg (requestState peerId maxBytes frame request written) data =
      (.ok (), requestState peerId maxBytes frame request (written ++ data)) := by
  obtain ⟨heq, hmax, hvarint⟩ := h.isFrame
  have hlength : frame.length = (varintEncode payload.length).length + payload.length := by
    rw [heq, List.length_append]
  have hparts : frame.length = written.length + data.length + rest.length := by
    rw [hframe, List.length_append, List.length_append]
  have hbound : ((written.length + data.length : ℕ) : ℤ) ≤ maxBytes + 10 := by
    push_cast
    omega
  rw [write_eq_observeRequest rfl hbound hbound]
  by_cases hrest : rest = []
  · subst hrest
    rw [List.append_nil] at hframe
    rw [observeRequest_complete h hframe.symm]
    simp [requestState, hframe]
  · rw [observeRequest_incomplete h hframe hrest]
    have hne : written ++ data ≠ frame := by
      intro heq'
      rw [hframe] at heq'
      exact hrest (List.append_right_eq_self.1 heq'.symm)
    have hne' : written ≠ frame := by
      intro heq'
      apply hrest
      apply List.eq_nil_of_length_eq_zero
      rw [heq'] at hparts
      omega
    simp [requestState, hne, hne']

/-- Writes of the rest of the request frame are passed on. -/
theorem after_writes_from (h : IsTypedRequest pkg maxBytes frame payload request)
    {written : Bytes} {writes : List Bytes} (hwrites : written ++ writes.flatten = frame) :
    (∀ outcome ∈ outcomes (write pkg) (requestState peerId maxBytes frame request written) writes,
      outcome = .ok ()) ∧
      after (write pkg) (requestState peerId maxBytes frame request written) writes =
        requestState peerId maxBytes frame request frame := by
  induction writes generalizing written with
  | nil =>
    rw [List.flatten_nil, List.append_nil] at hwrites
    subst hwrites
    simp
  | cons data writes ih =>
    rw [List.flatten_cons, ← List.append_assoc] at hwrites
    rw [outcomes_cons, after_cons, write_requestState h hwrites.symm, List.forall_mem_cons]
    obtain ⟨houtcomes, hafter⟩ := ih hwrites
    exact ⟨⟨rfl, houtcomes⟩, hafter⟩

/-- **The request is known once it is written**, in whatever parts, and every part is passed on. -/
theorem after_writes (peerId : Bytes)
    (h : IsTypedRequest pkg maxBytes frame payload request) {writes : List Bytes}
    (hwrites : writes.flatten = frame) :
    (∀ outcome ∈ outcomes (write pkg) (new peerId maxBytes) writes, outcome = .ok ()) ∧
      after (write pkg) (new peerId maxBytes) writes =
        requestState peerId maxBytes frame request frame := by
  have hframe : [] ≠ frame := by
    rw [h.isFrame.eq_append]
    exact (List.append_ne_nil_of_left_ne_nil (Leb128.encode_ne_nil _) _).symm
  have hnew : new peerId maxBytes = requestState peerId maxBytes frame request [] := by
    simp [requestState, new, hframe]
  rw [hnew]
  exact after_writes_from h hwrites

/-! ## Reading the response -/

/-- The state of a stream that has written the request and has taken the bytes `read`: still in the
prefix, or behind the minimal prefix of an allowed length. -/
inductive Following (peerId : Bytes) (maxBytes : ℤ) (request : DhtMessage) :
    Bytes → BoundedDHTStream → Prop
  | lengthPrefix {read written : Bytes} {writtenBytes : ℕ} :
      Following peerId maxBytes request read
        { peerId, maxBytes, request := written, requestMessage := some request,
          responsePrefix := read, responseLength := none, responsePayload := [],
          proofRecorded := false, tracking := true, writtenBytes }
  | payload {length : ℕ} {payload responsePrefix written : Bytes} {proofRecorded : Bool}
      {writtenBytes : ℕ} (hvarint : (varintEncode length).length ≤ 10)
      (hmax : (length : ℤ) ≤ maxBytes)
      (hrecorded : proofRecorded = true → length ≤ payload.length) :
      Following peerId maxBytes request (varintEncode length ++ payload)
        { peerId, maxBytes, request := written, requestMessage := some request, responsePrefix,
          responseLength := some length, responsePayload := payload, proofRecorded,
          tracking := true, writtenBytes }

theorem following_requestState :
    Following peerId maxBytes request [] (requestState peerId maxBytes frame request frame) := by
  simp only [requestState, if_true]
  exact .lengthPrefix

/-- What a read does with a chunk that is not empty, `data` being all bytes read with it: it reports
on the proofs exactly, and raises where they begin no frame. -/
structure Reports (pkg : DhtPackages) (peerId : Bytes) (maxBytes : ℤ) (request : DhtMessage)
    (data : Bytes) (result : ReadOutcome × BoundedDHTStream) : Prop where
  following : Following peerId maxBytes request data result.2
  reports : IsProofFrame pkg peerId maxBytes request data → result.1.proofs = [peerId]
  silent : ¬ IsProofFrame pkg peerId maxBytes request data → result.1.proofs = []
  raises : ¬ FrameBeginning maxBytes data → ∃ e, result.1.result = .error e

/-- Behind a minimal prefix of an allowed length, a proof is a payload of that length that passes
the checks. -/
theorem isProofFrame_iff (hvarint : (varintEncode length).length ≤ 10)
    (hmax : (length : ℤ) ≤ maxBytes) :
    IsProofFrame pkg peerId maxBytes request (varintEncode length ++ payload) ↔
      payload.length = length ∧ checkResponse pkg peerId request payload = .ok () := by
  rw [checkResponse_eq_ok]
  constructor
  · rintro ⟨payload', response, hframe, hproof⟩
    obtain ⟨rfl, rfl⟩ := varintEncode_append_inj hframe.eq_append
    exact ⟨rfl, response, hproof⟩
  · rintro ⟨rfl, response, hproof⟩
    exact ⟨payload, response, ⟨rfl, hmax, hvarint⟩, hproof⟩

/-- A proof has a complete prefix, which is minimal and allowed. -/
theorem IsProofFrame.decode (h : IsProofFrame pkg peerId maxBytes request data) :
    ∃ length payload, data = varintEncode length ++ payload ∧
      (varintEncode length).length ≤ 10 ∧ (length : ℤ) ≤ maxBytes := by
  obtain ⟨payload, response, ⟨rfl, hmax, hvarint⟩, -⟩ := h
  exact ⟨payload.length, payload, rfl, hvarint, hmax⟩

/-- More payload: the frame is reported when it is complete and proves serving, unless it was
complete before. -/
theorem reports_observePayload {responsePrefix written : Bytes} {proofRecorded : Bool}
    {writtenBytes : ℕ} (hvarint : (varintEncode length).length ≤ 10)
    (hmax : (length : ℤ) ≤ maxBytes)
    (hrecorded : proofRecorded = true → length < payload.length) (chunk : Bytes) :
    Reports pkg peerId maxBytes request (varintEncode length ++ payload)
      (observePayload pkg
        { peerId, maxBytes, request := written, requestMessage := some request, responsePrefix,
          responseLength := some length, responsePayload := payload, proofRecorded,
          tracking := true, writtenBytes } length chunk) := by
  have hproof : IsProofFrame pkg peerId maxBytes request (varintEncode length ++ payload) ↔
      payload.length = length ∧ checkResponse pkg peerId request payload = .ok () :=
    isProofFrame_iff hvarint hmax
  have hkept : proofRecorded = true → length ≤ payload.length := by
    intro hrec
    exact (hrecorded hrec).le
  rw [observePayload]
  dsimp only
  by_cases hlong : length < payload.length
  · rw [if_pos hlong]
    have hnot : ¬ IsProofFrame pkg peerId maxBytes request (varintEncode length ++ payload) := by
      intro h
      have := (hproof.1 h).1
      omega
    exact ⟨.payload hvarint hmax hkept, fun h => absurd h hnot, fun _ => rfl, fun _ => ⟨_, rfl⟩⟩
  have hbeginning : FrameBeginning maxBytes (varintEncode length ++ payload) :=
    .payload hvarint hmax (not_lt.1 hlong)
  have hunrecorded : proofRecorded = false := by
    by_contra hrec
    exact hlong (hrecorded (Bool.of_not_eq_false hrec))
  subst hunrecorded
  rw [if_neg hlong]
  by_cases hshort : payload.length ≠ length
  · rw [if_pos (.inl hshort)]
    have hnot : ¬ IsProofFrame pkg peerId maxBytes request (varintEncode length ++ payload) :=
      fun h => hshort (hproof.1 h).1
    exact ⟨.payload hvarint hmax hkept, fun h => absurd h hnot, fun _ => rfl,
      fun h => absurd hbeginning h⟩
  have hcomplete : payload.length = length := not_not.1 hshort
  rw [if_neg (by simp [hcomplete])]
  cases hcheck : checkResponse pkg peerId request payload with
  | error e =>
    have hnot : ¬ IsProofFrame pkg peerId maxBytes request (varintEncode length ++ payload) := by
      intro h
      rw [(hproof.1 h).2] at hcheck
      cases hcheck
    exact ⟨.payload hvarint hmax hkept, fun h => absurd h hnot, fun _ => rfl,
      fun h => absurd hbeginning h⟩
  | ok u =>
    have his := hproof.2 ⟨hcomplete, hcheck⟩
    exact ⟨.payload hvarint hmax fun _ => hcomplete.ge, fun _ => rfl, fun h => absurd his h,
      fun h => absurd hbeginning h⟩

/-- More of the prefix. -/
theorem reports_observeResponsePrefix {written : Bytes} {writtenBytes : ℕ} (chunk : Bytes) :
    Reports pkg peerId maxBytes request data
      (observeResponsePrefix pkg
        { peerId, maxBytes, request := written, requestMessage := some request,
          responsePrefix := data, responseLength := none, responsePayload := [],
          proofRecorded := false, tracking := true, writtenBytes } chunk) := by
  rw [observeResponsePrefix]
  cases hdecode : decodeVarintPrefix data with
  | error e =>
    have hnot : ¬ IsProofFrame pkg peerId maxBytes request data := by
      intro h
      obtain ⟨length, payload, rfl, hvarint, -⟩ := h.decode
      rw [decodeVarintPrefix_encode hvarint] at hdecode
      cases hdecode
    exact ⟨.lengthPrefix, fun h => absurd h hnot, fun _ => rfl, fun _ => ⟨_, rfl⟩⟩
  | ok decoded =>
    obtain _ | ⟨length, size⟩ := decoded
    · have hnot : ¬ IsProofFrame pkg peerId maxBytes request data := by
        intro h
        obtain ⟨length, payload, rfl, hvarint, -⟩ := h.decode
        rw [decodeVarintPrefix_encode hvarint] at hdecode
        cases hdecode
      have hlength := (decodeVarintPrefix_eq_none hdecode).2
      dsimp only
      rw [if_neg (by omega)]
      exact ⟨.lengthPrefix, fun h => absurd h hnot, fun _ => rfl,
        fun h => absurd (.lengthPrefix hdecode) h⟩
    dsimp only
    by_cases hallowed : varintEncode length = data.take size ∧ (length : ℤ) ≤ maxBytes
    · obtain ⟨hcanonical, hmax⟩ := hallowed
      obtain ⟨rest, rfl, rfl, hvarint⟩ := decodeVarintPrefix_canonical hdecode hcanonical
      rw [if_neg (not_not.2 hcanonical), if_neg (not_lt.2 hmax), List.drop_left, List.nil_append]
      exact reports_observePayload hvarint hmax (by simp) chunk
    · have hnot : ¬ IsProofFrame pkg peerId maxBytes request data := by
        intro h
        obtain ⟨length', payload, rfl, hvarint, hmax⟩ := h.decode
        rw [decodeVarintPrefix_encode hvarint] at hdecode
        obtain ⟨rfl, rfl⟩ := Prod.mk.inj (Option.some.inj (Except.ok.inj hdecode))
        exact hallowed ⟨List.take_left.symm, hmax⟩
      by_cases hcanonical : varintEncode length = data.take size
      · have hmax : maxBytes < length := by
          by_contra hmax
          exact hallowed ⟨hcanonical, not_lt.1 hmax⟩
        rw [if_neg (not_not.2 hcanonical), if_pos hmax]
        exact ⟨.lengthPrefix, fun h => absurd h hnot, fun _ => rfl, fun _ => ⟨_, rfl⟩⟩
      · rw [if_pos hcanonical]
        exact ⟨.lengthPrefix, fun h => absurd h hnot, fun _ => rfl, fun _ => ⟨_, rfl⟩⟩

/-- A chunk that is not empty. -/
theorem Following.observeResponse (pkg : DhtPackages)
    (h : Following peerId maxBytes request read stream)
    (hchunk : chunk ≠ []) :
    Reports pkg peerId maxBytes request (read ++ chunk) (observeResponse pkg stream chunk) := by
  have hpos := List.length_pos_iff.2 hchunk
  cases h with
  | lengthPrefix => exact reports_observeResponsePrefix chunk
  | payload hvarint hmax hrecorded =>
    rw [List.append_assoc]
    apply reports_observePayload hvarint hmax
    intro hrec
    have := hrecorded hrec
    rw [List.length_append]
    omega

theorem Following.fields (h : Following peerId maxBytes request read stream) :
    stream.maxBytes = maxBytes ∧ stream.tracking = true ∧ stream.requestMessage = some request := by
  cases h <;> exact ⟨rfl, rfl, rfl⟩

/-- A read that takes bytes observes them; one that takes none changes nothing. -/
theorem Following.read_cases (pkg : DhtPackages)
    (h : Following peerId maxBytes request read stream) (hr : r.Honest) (hmax : 0 ≤ maxBytes) :
    (r.response maxBytes = [] ∧
      ∃ result, stream.read pkg r = (⟨result, []⟩, stream)) ∨
    (r.response maxBytes ≠ [] ∧
      stream.read pkg r = stream.observeResponse pkg (r.response maxBytes)) := by
  obtain ⟨hmaxBytes, htracking, hrequest⟩ := h.fields
  have hobserve : ∀ n, stream.requested r.n = .ok n → r.receive n = r.response maxBytes →
      ((r.receive n).length : ℤ) ≤ maxBytes + 1 →
      stream.read pkg r =
        if r.response maxBytes ≠ [] then stream.observeResponse pkg (r.response maxBytes)
        else (⟨.ok (r.response maxBytes), []⟩, stream) := by
    intro n hn hchunk hlength
    simp only [BoundedDHTStream.read, hn, hmaxBytes, htracking, hrequest, hchunk]
    rw [hchunk] at hlength
    rw [if_neg (by omega)]
    simp
  have hsplit : stream.read pkg r =
        (if r.response maxBytes ≠ [] then stream.observeResponse pkg (r.response maxBytes)
        else (⟨.ok (r.response maxBytes), []⟩, stream)) →
      (r.response maxBytes = [] ∧ ∃ result, stream.read pkg r = (⟨result, []⟩, stream)) ∨
      (r.response maxBytes ≠ [] ∧
        stream.read pkg r = stream.observeResponse pkg (r.response maxBytes)) := by
    intro hread
    by_cases hnil : r.response maxBytes = []
    · rw [if_neg (not_not.2 hnil)] at hread
      exact .inl ⟨hnil, _, hread⟩
    · rw [if_pos hnil] at hread
      exact .inr ⟨hnil, hread⟩
  cases hn : r.n with
  | none =>
    apply hsplit
    have hlength := hr (maxBytes + 1) (by omega)
    exact hobserve _ (by rw [hn, requested, hmaxBytes]; rfl)
      (by rw [StreamRead.response, hn]) hlength
  | some n =>
    by_cases hallowed : 0 ≤ n ∧ n ≤ maxBytes
    · apply hsplit
      have hlength := hr n hallowed.1
      have hrequested : stream.requested r.n = .ok n := by
        rw [hn, requested, hmaxBytes]
        simp only [raiseIf_neg (not_lt.2 hallowed.1), raiseIf_neg (not_lt.2 hallowed.2), ok_bind]
        rfl
      have hresponse : r.receive n = r.response maxBytes := by
        rw [StreamRead.response, hn]
        exact (if_pos hallowed).symm
      exact hobserve n hrequested hresponse (by omega)
    · left
      have hresponse : r.response maxBytes = [] := by
        rw [StreamRead.response, hn]
        exact if_neg hallowed
      have hrequested : ∃ e, stream.requested r.n = .error e := by
        apply eq_error_of_forall_ne_ok
        intro m hm
        rw [hn, requested, hmaxBytes] at hm
        simp only [bind_eq_ok, raiseIf_eq_ok, not_lt, exists_const] at hm
        exact hallowed ⟨hm.1, hm.2.1⟩
      obtain ⟨e, he⟩ := hrequested
      refine ⟨hresponse, .error e, ?_⟩
      rw [BoundedDHTStream.read, he]

/-- The state after a read follows the bytes taken. -/
theorem Following.after_read (pkg : DhtPackages)
    (h : Following peerId maxBytes request read stream) (hr : r.Honest) (hmax : 0 ≤ maxBytes) :
    Following peerId maxBytes request (read ++ r.response maxBytes) (stream.read pkg r).2 := by
  rcases h.read_cases pkg hr hmax with ⟨hnil, result, hread⟩ | ⟨hne, hread⟩
  · rw [hnil, List.append_nil, hread]
    exact h
  · rw [hread]
    exact (h.observeResponse pkg hne).following

/-! ## Runs of reads -/

/-- The calls of `on_valid_response` that some reads of a stream make. -/
def proofCalls (pkg : DhtPackages) (stream : BoundedDHTStream) (reads : List StreamRead) :
    List Bytes :=
  (outcomes (BoundedDHTStream.read pkg) stream reads).flatMap ReadOutcome.proofs

/-- Some of the reads end at the end of a frame that proves serving. -/
def EndsAtProof (pkg : DhtPackages) (peerId : Bytes) (maxBytes : ℤ) (request : DhtMessage)
    (read : Bytes) (reads : List StreamRead) : Prop :=
  ∃ before later, reads = before ++ later ∧
    IsProofFrame pkg peerId maxBytes request (read ++ responseBytes maxBytes before)

variable {reads : List StreamRead}

theorem Following.after_reads (pkg : DhtPackages)
    (h : Following peerId maxBytes request read stream) (hreads : ∀ r ∈ reads, r.Honest)
    (hmax : 0 ≤ maxBytes) :
    Following peerId maxBytes request (read ++ responseBytes maxBytes reads)
      (after (BoundedDHTStream.read pkg) stream reads) := by
  have hkeep : ∀ read stream r, Following peerId maxBytes request read stream → r.Honest →
      Following peerId maxBytes request (read ++ r.response maxBytes) (stream.read pkg r).2 := by
    intro read stream r hs hr
    exact hs.after_read pkg hr hmax
  exact inv_after hkeep h hreads

/-- Bytes that go on after a proof are none. -/
theorem IsProofFrame.not_append (h : IsProofFrame pkg peerId maxBytes request data) (rest : Bytes)
    (hrest : rest ≠ []) : ¬ IsProofFrame pkg peerId maxBytes request (data ++ rest) := by
  obtain ⟨payload, response, ⟨rfl, hmax, hvarint⟩, -⟩ := h
  rw [List.append_assoc, isProofFrame_iff hvarint hmax]
  rintro ⟨hlength, -⟩
  have := List.length_pos_iff.2 hrest
  rw [List.length_append] at hlength
  omega

/-- A read reports when it takes bytes with which the bytes read are a proof, and only then. -/
theorem Following.read_proofs (pkg : DhtPackages)
    (h : Following peerId maxBytes request read stream) (hr : r.Honest) (hmax : 0 ≤ maxBytes) :
    (r.response maxBytes ≠ [] ∧
        IsProofFrame pkg peerId maxBytes request (read ++ r.response maxBytes) →
      (stream.read pkg r).1.proofs = [peerId]) ∧
    (¬ (r.response maxBytes ≠ [] ∧
        IsProofFrame pkg peerId maxBytes request (read ++ r.response maxBytes)) →
      (stream.read pkg r).1.proofs = []) := by
  rcases h.read_cases pkg hr hmax with ⟨hnil, result, heq⟩ | ⟨hne, heq⟩
  · rw [heq]
    exact ⟨fun hproof => absurd hnil hproof.1, fun _ => rfl⟩
  · have hreports := h.observeResponse pkg hne
    rw [heq]
    exact ⟨fun hproof => hreports.reports hproof.2,
      fun hnot => hreports.silent fun hproof => hnot ⟨hne, hproof⟩⟩

/-- The first read ends at a proof, or one of the others does. -/
theorem endsAtProof_cons (hread : ¬ IsProofFrame pkg peerId maxBytes request read) :
    EndsAtProof pkg peerId maxBytes request read (r :: reads) ↔
      EndsAtProof pkg peerId maxBytes request (read ++ r.response maxBytes) reads := by
  constructor
  · rintro ⟨before, later, heq, hproof⟩
    obtain _ | ⟨q, before⟩ := before
    · simp only [responseBytes, List.flatMap_nil, List.append_nil] at hproof
      exact absurd hproof hread
    · obtain ⟨rfl, rfl⟩ := List.cons.inj heq
      refine ⟨before, later, rfl, ?_⟩
      rwa [List.append_assoc]
  · rintro ⟨before, later, rfl, hproof⟩
    refine ⟨r :: before, later, rfl, ?_⟩
    rwa [List.append_assoc] at hproof

/-- After a proof nothing is reported. -/
theorem Following.proofCalls_of_proof (h : Following peerId maxBytes request read stream)
    (hreads : ∀ r ∈ reads, r.Honest) (hmax : 0 ≤ maxBytes) (hdata : read = data ++ chunk)
    (hproof : IsProofFrame pkg peerId maxBytes request data) :
    proofCalls pkg stream reads = [] := by
  induction reads generalizing read stream chunk with
  | nil => rfl
  | cons r reads ih =>
    have hr := hreads r List.mem_cons_self
    have hlonger : read ++ r.response maxBytes = data ++ (chunk ++ r.response maxBytes) := by
      rw [hdata, List.append_assoc]
    have hrest := ih (h.after_read pkg hr hmax) (fun q hq => hreads q (List.mem_cons_of_mem r hq))
      hlonger
    rw [proofCalls, outcomes_cons, List.flatMap_cons, ← proofCalls, hrest, List.append_nil]
    apply (h.read_proofs pkg hr hmax).2
    rintro ⟨hne, hagain⟩
    rw [hlonger] at hagain
    exact hproof.not_append _ (by simp [hne]) hagain

/-- **The reads report exactly when one of them ends at the end of a proof**, and then once. -/
theorem Following.proofCalls_eq (h : Following peerId maxBytes request read stream)
    (hreads : ∀ r ∈ reads, r.Honest) (hmax : 0 ≤ maxBytes)
    (hread : ¬ IsProofFrame pkg peerId maxBytes request read) :
    (EndsAtProof pkg peerId maxBytes request read reads → proofCalls pkg stream reads = [peerId]) ∧
      (¬ EndsAtProof pkg peerId maxBytes request read reads →
        proofCalls pkg stream reads = []) := by
  induction reads generalizing read stream with
  | nil =>
    refine ⟨?_, fun _ => rfl⟩
    rintro ⟨before, later, hnil, hproof⟩
    obtain ⟨rfl, rfl⟩ := List.append_eq_nil_iff.1 hnil.symm
    simp only [responseBytes, List.flatMap_nil, List.append_nil] at hproof
    exact absurd hproof hread
  | cons r reads ih =>
    have hr := hreads r List.mem_cons_self
    have hreads' := fun q hq => hreads q (List.mem_cons_of_mem r hq)
    have hafter := h.after_read pkg hr hmax
    rw [endsAtProof_cons hread, proofCalls, outcomes_cons, List.flatMap_cons, ← proofCalls]
    by_cases hproof : IsProofFrame pkg peerId maxBytes request (read ++ r.response maxBytes)
    · have hlater := hafter.proofCalls_of_proof hreads' hmax (List.append_nil _).symm hproof
      have hhere : EndsAtProof pkg peerId maxBytes request (read ++ r.response maxBytes) reads :=
        ⟨[], reads, rfl, by simpa [responseBytes] using hproof⟩
      have hne : r.response maxBytes ≠ [] := by
        intro hnil
        rw [hnil, List.append_nil] at hproof
        exact hread hproof
      rw [hlater, List.append_nil]
      exact ⟨fun _ => (h.read_proofs pkg hr hmax).1 ⟨hne, hproof⟩, fun hnot => absurd hhere hnot⟩
    · rw [(h.read_proofs pkg hr hmax).2 fun hboth => hproof hboth.2, List.nil_append]
      exact ih hafter hreads' hproof

theorem not_isProofFrame_nil : ¬ IsProofFrame pkg peerId maxBytes request [] := by
  rintro ⟨payload, response, hframe, -⟩
  exact Leb128.encode_ne_nil _ (List.append_eq_nil_iff.1 hframe.eq_append.symm).1

/-- More payload than was declared begins no frame. -/
theorem not_frameBeginning_of_lt (h : length < payload.length) :
    ¬ FrameBeginning maxBytes (varintEncode length ++ payload) := by
  intro hbeginning
  generalize hdata : varintEncode length ++ payload = data at hbeginning
  cases hbeginning with
  | lengthPrefix hnone =>
    have hread := (decodeVarintPrefix_eq_none hnone).1
    rw [← hdata, Leb128.read_encode_append] at hread
    cases hread
  | payload hvarint hmax hpayload =>
    obtain ⟨rfl, rfl⟩ := varintEncode_append_inj hdata
    omega

/-- A read that takes bytes raises where more than the declared frame is read with it. -/
theorem Following.read_overrun (pkg : DhtPackages)
    (h : Following peerId maxBytes request read stream) (hr : r.Honest) (hmax : 0 ≤ maxBytes)
    (hne : r.response maxBytes ≠ [])
    (hdata : read ++ r.response maxBytes = varintEncode length ++ payload)
    (hlong : length < payload.length) : ∃ e, (stream.read pkg r).1.result = .error e := by
  rcases h.read_cases pkg hr hmax with ⟨hnil, -⟩ | ⟨-, heq⟩
  · exact absurd hnil hne
  · rw [heq]
    apply (h.observeResponse pkg hne).raises
    rw [hdata]
    exact not_frameBeginning_of_lt hlong

/-- Where the response goes on no further than its declared frame, a read ends at a proof exactly
when the whole response is one. -/
theorem endsAtProof_iff
    (hdata : ∀ length payload, responseBytes maxBytes reads = varintEncode length ++ payload →
      payload.length ≤ length) :
    EndsAtProof pkg peerId maxBytes request [] reads ↔
      IsProofFrame pkg peerId maxBytes request (responseBytes maxBytes reads) := by
  constructor
  · rintro ⟨before, later, rfl, hproof⟩
    have hsplit : responseBytes maxBytes (before ++ later) =
        responseBytes maxBytes before ++ responseBytes maxBytes later := List.flatMap_append
    rw [List.nil_append] at hproof
    have hend : responseBytes maxBytes later = [] := by
      obtain ⟨payload, response, ⟨heq, -, -⟩, -⟩ := hproof
      have hle := hdata payload.length (payload ++ responseBytes maxBytes later)
        (by rw [hsplit, heq, List.append_assoc])
      rw [List.length_append] at hle
      exact List.eq_nil_of_length_eq_zero (by omega)
    rwa [hsplit, hend, List.append_nil]
  · intro hproof
    exact ⟨reads, [], (List.append_nil _).symm, hproof⟩

/-! ## A sample exchange -/

namespace Sample

/-- A request to find a node, without a key, and its equal as a response. -/
def findNodeMessage : DhtMessage :=
  { byteSize := 2, type := DhtMessage.findNode, key := [], record := none, closerPeers := [],
    providerPeers := [] }

/-- Packages that parse the bytes of this message. It has no peers to decode. -/
def findNodePackages : DhtPackages where
  parse data := if data = [8, 4] then some findNodeMessage else none
  multihashDecode _ := .ok ()
  multiaddr _ := .ok ()
  validateResponse := none
  onValidResponse _ := .ok ()

theorem findNode_isFrame : IsDhtFrame 8 [2, 8, 4] [8, 4] := by
  have hvarint : varintEncode 2 = [2] := Leb128.encode_of_lt (by decide)
  exact ⟨by simp [hvarint], by decide, by simp [hvarint]⟩

theorem findNode_isTypedRequest :
    IsTypedRequest findNodePackages 8 [2, 8, 4] [8, 4] findNodeMessage where
  isFrame := findNode_isFrame
  parse := rfl
  byteSize_ne_zero := by decide
  typed := by decide

theorem findNode_isProofFrame :
    IsProofFrame findNodePackages [1] 8 findNodeMessage [2, 8, 4] :=
  ⟨[8, 4], findNodeMessage, findNode_isFrame,
    { typed := by decide, parse := rfl, answers := rfl, signed := fun _ h => nomatch h }⟩

/-- A read that asks for any number of bytes and gets these. -/
def readOf (chunk : Bytes) : StreamRead := ⟨none, fun n => chunk.take n.toNat⟩

theorem readOf_honest (chunk : Bytes) : (readOf chunk).Honest := by
  intro n hn
  simp only [readOf, List.length_take]
  omega

end Sample

/-- **Serving is reported once, at the end of a complete valid response.** A complete canonical
typed request is written in any parts, and any reads follow. The callback is called at most once; a
read calls it exactly when it takes bytes with which the bytes read are one frame that proves
serving; a read that takes bytes raises when more bytes than the declared frame are read with it. So
the callback is called exactly when some of the reads end at the end of such a frame, and for a
response that does not go on behind its declared frame this depends on its bytes alone. -/
theorem servingProof_recorded (pkg : DhtPackages) (peerId : Bytes) (maxBytes : ℤ)
    (frame payload : Bytes) (request : DhtMessage)
    (h : IsTypedRequest pkg maxBytes frame payload request) (writes : List Bytes)
    (hwrites : writes.flatten = frame) (reads : List StreamRead)
    (hreads : ∀ r ∈ reads, r.Honest) :
    let stream := after (write pkg) (new peerId maxBytes) writes
    (proofCalls pkg stream reads).length ≤ 1 ∧
    (∀ before r later, reads = before ++ r :: later →
      let outcome := ((after (BoundedDHTStream.read pkg) stream before).read pkg r).1
      let data := responseBytes maxBytes (before ++ [r])
      (outcome.proofs = [] ∨ outcome.proofs = [peerId]) ∧
      (outcome.proofs = [peerId] ↔ r.response maxBytes ≠ [] ∧
        IsProofFrame pkg peerId maxBytes request data) ∧
      (r.response maxBytes ≠ [] → ∀ length payload, data = varintEncode length ++ payload →
        length < payload.length → ∃ e, outcome.result = .error e)) ∧
    (proofCalls pkg stream reads = [peerId] ↔
      EndsAtProof pkg peerId maxBytes request [] reads) ∧
    ((∀ length payload, responseBytes maxBytes reads = varintEncode length ++ payload →
        payload.length ≤ length) →
      (proofCalls pkg stream reads = [peerId] ↔
        IsProofFrame pkg peerId maxBytes request (responseBytes maxBytes reads))) := by
  intro stream
  have hmax : 0 ≤ maxBytes := by
    have := h.isFrame.length_le
    omega
  have hstream : Following peerId maxBytes request [] stream := by
    simp only [stream, (after_writes peerId h hwrites).2]
    exact following_requestState
  obtain ⟨hreported, hsilent⟩ := hstream.proofCalls_eq hreads hmax not_isProofFrame_nil
  have hiff : proofCalls pkg stream reads = [peerId] ↔
      EndsAtProof pkg peerId maxBytes request [] reads := by
    refine ⟨?_, hreported⟩
    intro hcalls
    by_contra hnot
    rw [hsilent hnot] at hcalls
    cases hcalls
  refine ⟨?_, ?_, hiff, ?_⟩
  · by_cases hends : EndsAtProof pkg peerId maxBytes request [] reads
    · rw [hreported hends, List.length_singleton]
    · rw [hsilent hends]
      exact Nat.zero_le 1
  · rintro before r later rfl outcome data
    have hbefore : ∀ q ∈ before, q.Honest := fun q hq => hreads q (List.mem_append_left _ hq)
    have hr : r.Honest := hreads r (List.mem_append_right _ List.mem_cons_self)
    have hfollowing := hstream.after_reads pkg hbefore hmax
    rw [List.nil_append] at hfollowing
    have hdata : data = responseBytes maxBytes before ++ r.response maxBytes := by
      simp only [data, responseBytes, List.flatMap_append, List.flatMap_singleton]
    obtain ⟨hreports, hsilent⟩ := hfollowing.read_proofs pkg hr hmax
    rw [← hdata] at hreports hsilent
    refine ⟨?_, ⟨fun hproofs => ?_, hreports⟩, fun hne length payload hpayload hlong => ?_⟩
    · by_cases hproof : r.response maxBytes ≠ [] ∧ IsProofFrame pkg peerId maxBytes request data
      · exact .inr (hreports hproof)
      · exact .inl (hsilent hproof)
    · by_contra hnot
      cases hproofs.symm.trans (hsilent hnot)
    · exact hfollowing.read_overrun pkg hr hmax hne (hdata.symm.trans hpayload) hlong
  · intro hdata
    rw [hiff, endsAtProof_iff hdata]

/-- The request is written in two parts, and the response is read in two chunks. -/
theorem findNode_recorded :
    proofCalls Sample.findNodePackages
      (after (write Sample.findNodePackages) (new [1] 8) [[2], [8, 4]])
      [Sample.readOf [2, 8], Sample.readOf [4]] = [[1]] := by
  have hreads : ∀ r ∈ [Sample.readOf [2, 8], Sample.readOf [4]], r.Honest := by
    intro r hr
    simp only [List.mem_cons, List.not_mem_nil, or_false] at hr
    rcases hr with rfl | rfl
    · exact Sample.readOf_honest _
    · exact Sample.readOf_honest _
  have hrecorded := servingProof_recorded Sample.findNodePackages [1] 8 [2, 8, 4] [8, 4]
    Sample.findNodeMessage Sample.findNode_isTypedRequest [[2], [8, 4]] rfl
    [Sample.readOf [2, 8], Sample.readOf [4]] hreads
  exact hrecorded.2.2.1.2
    ⟨[Sample.readOf [2, 8], Sample.readOf [4]], [], rfl, Sample.findNode_isProofFrame⟩

/-- The same response bytes, a valid frame and one more byte: read in two chunks they are reported,
in one they are not. -/
theorem trailingByte_unreported :
    let stream := after (write Sample.findNodePackages) (new [1] 8) [[2, 8, 4]]
    let split := [Sample.readOf [2, 8, 4], Sample.readOf [0]]
    let joined := [Sample.readOf [2, 8, 4, 0]]
    IsTypedRequest Sample.findNodePackages 8 [2, 8, 4] [8, 4] Sample.findNodeMessage ∧
      (∀ r ∈ split, r.Honest) ∧ (∀ r ∈ joined, r.Honest) ∧
      responseBytes 8 split = responseBytes 8 joined ∧
      proofCalls Sample.findNodePackages stream split = [[1]] ∧
      proofCalls Sample.findNodePackages stream joined = [] := by
  intro stream split joined
  have hstream : Following [1] 8 Sample.findNodeMessage [] stream := by
    have hwrites := after_writes [1] Sample.findNode_isTypedRequest (List.flatten_singleton)
    simp only [stream, hwrites.2]
    exact following_requestState
  have hsplit : ∀ r ∈ split, r.Honest := by
    intro r hr
    simp only [split, List.mem_cons, List.not_mem_nil, or_false] at hr
    rcases hr with rfl | rfl
    · exact Sample.readOf_honest _
    · exact Sample.readOf_honest _
  have hjoined : ∀ r ∈ joined, r.Honest := by
    intro r hr
    rw [List.mem_singleton.1 hr]
    exact Sample.readOf_honest _
  refine ⟨Sample.findNode_isTypedRequest, hsplit, hjoined, rfl, ?_, ?_⟩
  · apply (hstream.proofCalls_eq hsplit (by decide) not_isProofFrame_nil).1
    exact ⟨[Sample.readOf [2, 8, 4]], _, rfl, Sample.findNode_isProofFrame⟩
  · apply (hstream.proofCalls_eq hjoined (by decide) not_isProofFrame_nil).2
    rintro ⟨before, later, heq, hproof⟩
    rcases List.append_eq_singleton_iff.1 heq.symm with ⟨rfl, -⟩ | ⟨rfl, -⟩
    · exact not_isProofFrame_nil hproof
    · exact Sample.findNode_isProofFrame.not_append [0] (by decide) hproof

end DecentRegistry
