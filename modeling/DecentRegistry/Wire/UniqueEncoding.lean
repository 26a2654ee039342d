import DecentRegistry.Wire.RoundTrip

/-!
# One encoding of each record

The decoders compare the keys of dictionaries with `==`, under which `True` and `1.0` are `1`, while
the encoders write integers. So bytes that are accepted are what is written for the decoded record
exactly when all keys in them are integers (`wireEncoding_unique_iff`). A SignedUpdate under the
keys `True`, 2, 3 and 4 is accepted as well, and is a second encoding (`booleanKey_accepted`). -/

namespace DecentRegistry

open Fallible PyValue DistinctReading

variable {rt : Runtime}

/-- Accepted bytes are what is written for `w` exactly when their keys are integers, provided that
with integer keys they hold the entries of `w`. -/
theorem rewritten_iff (hrt : rt.Canonical) {b : Bytes} {map : Dict} {w : Value}
    (hload : LoadsDict rt b map) (hw : Wire w)
    (horders : IntKeyed (.dict map) → Orders (.dict map) w.ordered) :
    rt.dumps w = some b ↔ IntKeyed (.dict map) := by
  constructor
  · intro hdumps
    have hloads := (hrt.loads w b hw hdumps).symm.trans hload.1
    rw [← Option.some.inj hloads]
    exact hw.intKeyed_ordered
  · intro hkeys
    have hmap := horders hkeys
    rw [← hrt.dumps w hw, ← hmap.eq, hrt.dumps _ hmap.wire]
    exact hload.2

/-! ## Dictionaries of accepted values -/

/-- A dictionary of integers with the right keys holds the given entries. -/
theorem orders_of_keysAre {d : Dict} {l : List (ℕ × Value)}
    (sorted : (l.map (·.1)).Pairwise (· < ·))
    (keys : Dict.keysAre d (l.map fun e => (e.1 : Int)) = true) (hint : IntKeyed (.dict d))
    (hproper : Proper (.dict d))
    (h : ∀ e ∈ l, ∃ v, Dict.get? d e.1 = some v ∧ Orders v e.2) :
    Orders (.dict d) (.dict (natEntries l)) := by
  refine .dict sorted keys (natKeyed_of_keysAre (l := l.map (·.1)) ?_ hint.keys hproper.distinct) h
  simpa [List.map_map, Function.comp_def] using keys

theorem SignerEntry.IsRead.orders {entry : SignerEntry} {map : Dict} (h : entry.IsRead map)
    (hint : IntKeyed (.dict map)) (hproper : Proper (.dict map)) :
    Orders (.dict map) entry.toValue := by
  refine orders_of_keysAre (l := [(1, .atom (.text entry.signerId)),
    (2, .atom (.bytes entry.publicKey))]) (by simp) h.keys hint hproper ?_
  simpa using ⟨⟨_, h.signerId, (InOrder.atom (.text _)).orders⟩,
    ⟨_, h.publicKey, (InOrder.atom (.bytes _)).orders⟩⟩

theorem Proof.IsRead.orders {proof : Proof} {map : Dict} (h : proof.IsRead map)
    (hint : IntKeyed (.dict map)) (hproper : Proper (.dict map)) :
    Orders (.dict map) proof.toValue := by
  have hdict {id : Atom} (hget : map.get? 1 = some (.atom id)) (hid : InOrder (.atom id)) :
      Orders (.dict map)
        (.dict (natEntries [(1, .atom id), (2, .atom (.bytes proof.signature))])) := by
    refine orders_of_keysAre (by simp) h.keys hint hproper ?_
    simpa using ⟨⟨_, hget, hid.orders⟩, ⟨_, h.signature, (InOrder.atom (.bytes _)).orders⟩⟩
  refine hdict h.signerId ?_
  cases proof.signerId with
  | none => exact .atom .none
  | some t => exact .atom (.text t)

/-- Entries that are read one by one are ordered one by one. -/
theorem orders_list {α : Type} {reads : Value → α → Prop} {toValue : α → Value} {xs : List Value}
    {l : List α} (h : List.Forall₂ reads xs l) (hint : ∀ v ∈ xs, IntKeyed v)
    (hproper : ∀ v ∈ xs, Proper v)
    (step : ∀ v a, reads v a → IntKeyed v → Proper v → Orders v (toValue a)) :
    Orders (.list xs) (.list (l.map toValue)) := by
  refine .list ?_
  induction h with
  | nil => exact .nil
  | @cons v a xs l hv _ ih =>
    refine .cons (step v a hv (hint v (by simp)) (hproper v (by simp))) (ih ?_ ?_)
    · exact fun w hw => hint w (by simp [hw])
    · exact fun w hw => hproper w (by simp [hw])

theorem Authorization.IsRead.orders {a : Authorization} {map : Dict} {signerSet : List Value}
    (h : a.IsRead map signerSet) (hint : IntKeyed (.dict map)) (hproper : Proper (.dict map)) :
    Orders (.dict map) a.toValue := by
  have hsigners : Orders (.list signerSet) (.list (a.signerSet.map SignerEntry.toValue)) := by
    refine orders_list h.reads.reads (hint.get? h.signers).mem (hproper.get? h.signers).mem ?_
    intro v entry hread hkeys hdistinct
    obtain ⟨map, rfl, hentry⟩ := readSignerEntry_eq_ok.1 hread
    exact hentry.orders hkeys hdistinct
  refine orders_of_keysAre (l := [(1, natValue a.scheme), (2, natValue a.recordKind.code),
    (3, natValue a.operation.code), (4, natValue a.epoch), (5, natValue a.threshold),
    (6, .list (a.signerSet.map SignerEntry.toValue)), (7, .atom (.bytes a.predecessorStateHash))])
    (by simp) h.keys hint hproper ?_
  simpa using ⟨⟨_, h.scheme, (inOrder_natValue _).orders⟩,
    ⟨_, h.recordKind, (inOrder_natValue _).orders⟩, ⟨_, h.operation, (inOrder_natValue _).orders⟩,
    ⟨_, h.epoch, (inOrder_natValue _).orders⟩, ⟨_, h.threshold, (inOrder_natValue _).orders⟩,
    ⟨_, h.signers, hsigners⟩, ⟨_, h.predecessor, (InOrder.atom (.bytes _)).orders⟩⟩

/-! ## The three decoders -/

/-- A SignedUpdate that is accepted. -/
theorem MultisignatureUpdate.rewritten_iff (hrt : rt.Canonical) {b : Bytes} {map : Dict}
    {u : MultisignatureUpdate} (hload : LoadsDict rt b map) (h : u.IsRead map)
    (hproper : Proper (.dict map)) : rt.dumps u.toValue = some b ↔ IntKeyed (.dict map) := by
  obtain ⟨entries, signerSet, h₄, hread⟩ := h.authorization
  -- the record fields and the payload have integer keys in any case
  have hf : NatKeyed u.recordFields :=
    natKeyed_of_distinctNumbers h.fieldKeys (hproper.get? h.recordFields).distinct
  have hp : NatKeyed u.payload :=
    natKeyed_of_distinctNumbers h.payloadKeys (hproper.get? h.payload).distinct
  obtain ⟨hfields, hpayload⟩ := h.binding.inOrder hf hp
  obtain ⟨hwire, hordered⟩ := MultisignatureUpdate.ordered_toValue u hf hp h.binding
  refine DecentRegistry.rewritten_iff hrt hload hwire fun hint => ?_
  rw [hordered]
  refine orders_of_keysAre (l := [(1, .dict (sortByKey u.recordFields)),
    (2, .dict (sortByKey u.payload)), (3, natValue u.seq), (4, u.authorization.toValue)])
    (by simp) h.keys hint hproper ?_
  have hauthorization : Orders (.dict entries) u.authorization.toValue :=
    hread.orders (hint.get? h₄) (hproper.get? h₄)
  simpa using ⟨⟨_, h.recordFields, ⟨.dict hf fun e he => (hfields e he).wire,
      ordered_dict_of_inOrder hfields⟩⟩,
    ⟨_, h.payload, ⟨.dict hp fun e he => (hpayload e he).wire, ordered_dict_of_inOrder hpayload⟩⟩,
    ⟨_, h.seq, (inOrder_natValue _).orders⟩, ⟨_, h₄, hauthorization⟩⟩

/-- An envelope that is accepted. -/
theorem MultisignatureEnvelope.rewritten_iff (hrt : rt.Canonical) {b : Bytes} {map : Dict}
    {envelope : MultisignatureEnvelope} (hload : LoadsDict rt b map) (h : envelope.IsRead rt map)
    (hproper : Proper (.dict map)) : rt.dumps envelope.toValue = some b ↔ IntKeyed (.dict map) := by
  obtain ⟨list, h₃, hread⟩ := h.proofs
  have hinOrder := envelope.inOrder_toValue
  refine DecentRegistry.rewritten_iff hrt hload hinOrder.wire fun hint => ?_
  rw [hinOrder.ordered]
  have hproofs : Orders (.list list) (.list (envelope.proofs.map Proof.toValue)) := by
    refine orders_list hread.reads (hint.get? h₃).mem (hproper.get? h₃).mem ?_
    rintro v proof ⟨map, rfl, hproof⟩ hkeys hdistinct
    exact hproof.orders hkeys hdistinct
  refine orders_of_keysAre (l := [(1, .atom (.int envelope.version)),
    (2, .atom (.bytes envelope.signedUpdateBytes)),
    (3, .list (envelope.proofs.map Proof.toValue))]) (by simp) h.keys hint hproper ?_
  simpa using ⟨⟨_, h.version, (InOrder.atom (.int _)).orders⟩,
    ⟨_, h.signedUpdateBytes, (InOrder.atom (.bytes _)).orders⟩, ⟨_, h₃, hproofs⟩⟩

/-- A legacy envelope that is accepted. -/
theorem signedEnvelope_rewritten_iff (hrt : rt.Canonical) {b signedUpdateBytes signature : Bytes}
    {map : Dict} (hload : LoadsDict rt b map) (keys : map.keysAre [1, 2] = true)
    (h₁ : map.get? 1 = some (.atom (.bytes signedUpdateBytes)))
    (h₂ : map.get? 2 = some (.atom (.bytes signature))) (hproper : Proper (.dict map)) :
    rt.dumps (.dict (natEntries [(1, .atom (.bytes signedUpdateBytes)),
      (2, .atom (.bytes signature))])) = some b ↔ IntKeyed (.dict map) := by
  have hinOrder : InOrder (.dict (natEntries [(1, .atom (.bytes signedUpdateBytes)),
      (2, .atom (.bytes signature))])) := by
    refine .natEntries (by simp) ?_
    simpa using ⟨.atom (.bytes _), .atom (.bytes _)⟩
  refine rewritten_iff hrt hload hinOrder.wire fun hint => ?_
  rw [hinOrder.ordered]
  refine orders_of_keysAre (by simp) keys hint hproper ?_
  simpa using ⟨⟨_, h₁, (InOrder.atom (.bytes _)).orders⟩, ⟨_, h₂, (InOrder.atom (.bytes _)).orders⟩⟩

/-- Encoding an accepted SignedUpdate again writes its dictionary. -/
theorem MultisignatureUpdate.IsRead.encode {u : MultisignatureUpdate} {map : Dict} {b : Bytes}
    (h : u.IsRead map) :
    encodeMultisignatureSignedUpdate rt u.recordFields u.payload (natValue u.seq)
      u.authorization.toValue = .ok b ↔ rt.dumps u.toValue = some b := by
  obtain ⟨entries, signerSet, -, hread⟩ := h.authorization
  obtain ⟨written, hwritten, hback⟩ := hread.toValue
  rw [h.sorted] at hwritten hback
  rw [encodeMultisignatureSignedUpdate_eq_ok]
  constructor
  · rintro ⟨n, entries', signerSet', a, hseq, hentries, hread', -, -, -, hdumps⟩
    obtain rfl : u.seq = n := by simpa [natValue] using hseq
    have hsorted : validateAuthorizationMap (.dict entries') true = .ok a.sorted :=
      validateAuthorizationMap_eq_ok.2 ⟨entries', signerSet', a, rfl, hread', rfl, by simp⟩
    have hself : validateAuthorizationMap (.dict entries') true = .ok u.authorization := by
      rw [← hentries, hwritten]
      exact validateAuthorizationMap_eq_ok.2
        ⟨written, _, u.authorization, rfl, hback, h.sorted.symm, by simp⟩
    have hsame := hsorted.symm.trans hself
    rw [Except.ok.inj hsame] at hdumps
    exact hdumps
  · intro hdumps
    refine ⟨u.seq, written, _, u.authorization, rfl, hwritten, hback, h.fieldKeys, h.payloadKeys,
      h.binding, ?_⟩
    rw [h.sorted]
    exact hdumps

/-- Encoding an accepted envelope again writes its dictionary. -/
theorem MultisignatureEnvelope.IsRead.encode {envelope : MultisignatureEnvelope} {map : Dict}
    {b : Bytes} (h : envelope.IsRead rt map) :
    encodeMultisignatureEnvelope rt envelope.signedUpdateBytes
      (.list (envelope.proofs.map Proof.toValue)) = .ok b ↔ rt.dumps envelope.toValue = some b := by
  obtain ⟨list, -, hread⟩ := h.proofs
  obtain ⟨u, hu⟩ := h.signedUpdate
  have hback := hread.toValue (.refl _)
  have hwritten : MultisignatureEnvelope.toValue
      ⟨1, envelope.signedUpdateBytes, sortedBy proofSortKey envelope.proofs⟩ =
        envelope.toValue := by
    rw [h.sorted, ← h.supported]
  rw [encodeMultisignatureEnvelope_eq_ok, ← hwritten]
  constructor
  · rintro ⟨list', read, -, hlist, hread', -, hdumps⟩
    obtain rfl : envelope.proofs.map Proof.toValue = list' := by simpa using hlist
    have hsame := (readProofs_eq_ok.2 hback).symm.trans (readProofs_eq_ok.2 hread')
    rw [Except.ok.inj hsame]
    exact hdumps
  · intro hdumps
    exact ⟨_, envelope.proofs, u, rfl, hback, hu, hdumps⟩

/-- **Accepted bytes are the encoding of what they decode to** exactly when all keys in them are
integers, for each of the three decoders. -/
theorem wireEncoding_unique_iff (rt : Runtime) (hrt : rt.Canonical) (b : Bytes)
    (hproper : ∀ v, rt.loads b = some v → Proper v) :
    (∀ envelope, decodeMultisignatureEnvelope rt b = .ok envelope →
      (encodeMultisignatureEnvelope rt envelope.signedUpdateBytes
          (.list (envelope.proofs.map Proof.toValue)) = .ok b ↔
        ∀ v, rt.loads b = some v → IntKeyed v)) ∧
    (∀ u, decodeMultisignatureSignedUpdate rt b = .ok u →
      (encodeMultisignatureSignedUpdate rt u.recordFields u.payload (natValue u.seq)
          u.authorization.toValue = .ok b ↔ ∀ v, rt.loads b = some v → IntKeyed v)) ∧
    ∀ signedUpdateBytes signature, decodeSignedEnvelope rt b = .ok (signedUpdateBytes, signature) →
      (encodeSignedEnvelope rt signedUpdateBytes signature = .ok b ↔
        ∀ v, rt.loads b = some v → IntKeyed v) := by
  have hkeys {map : Dict} (hload : LoadsDict rt b map) :
      (∀ v, rt.loads b = some v → IntKeyed v) ↔ IntKeyed (.dict map) := by
    simp [hload.1]
  refine ⟨?_, ?_, ?_⟩
  · intro envelope h
    obtain ⟨map, hload, hread⟩ := decodeMultisignatureEnvelope_eq_ok.1 h
    rw [hread.encode, hkeys hload, envelope.rewritten_iff hrt hload hread (hproper _ hload.1)]
  · intro u h
    obtain ⟨map, hload, hread⟩ := decodeMultisignatureSignedUpdate_iff.1 h
    rw [hread.encode, hkeys hload, u.rewritten_iff hrt hload hread (hproper _ hload.1)]
  · intro signedUpdateBytes signature h
    obtain ⟨map, hload, keys, h₁, h₂, -⟩ := decodeSignedEnvelope_eq_ok.1 h
    rw [hkeys hload, ← signedEnvelope_rewritten_iff hrt hload keys h₁ h₂ (hproper _ hload.1)]
    simp only [encodeSignedEnvelope, canonicalCbor, orRaise_eq_ok]
    rfl

namespace Sample

/-- The dictionary of a legacy envelope. -/
def envelopeEntries (signedUpdateBytes signature : Bytes) : Dict :=
  natEntries [(1, .atom (.bytes signedUpdateBytes)), (2, .atom (.bytes signature))]

theorem inOrder_envelopeEntries (signedUpdateBytes signature : Bytes) :
    InOrder (.dict (envelopeEntries signedUpdateBytes signature)) := by
  refine .natEntries (by simp) ?_
  simpa using ⟨.atom (.bytes _), .atom (.bytes _)⟩

theorem loads_cbor {v : Value} (hv : InOrder v) (h : cbor v ≠ []) :
    runtime.loads (cbor v) = some v := by
  unfold cbor at h ⊢
  cases hb : Cbor.encode v with
  | none =>
    rw [hb] at h
    exact absurd rfl h
  | some b =>
    have hloads := runtime_canonical.loads v b hv.wire hb
    rw [hv.ordered] at hloads
    exact hloads

theorem loads_legacyEnvelope {recordFields payload : Dict} {seq : ℕ} {s : Signatures}
    (h : legacyEnvelope recordFields payload seq s ≠ []) :
    ∃ signedUpdateBytes signature, runtime.loads (legacyEnvelope recordFields payload seq s) =
      some (.dict (envelopeEntries signedUpdateBytes signature)) :=
  ⟨_, _, loads_cbor (inOrder_envelopeEntries _ _) h⟩

end Sample

/-- The first legacy Identity is written as it was read. -/
theorem legacyIdentity_rewritten :
    ∃ signedUpdateBytes signature,
      decodeSignedEnvelope Sample.runtime Sample.legacyIdentity =
        .ok (signedUpdateBytes, signature) ∧
      encodeSignedEnvelope Sample.runtime signedUpdateBytes signature =
        .ok Sample.legacyIdentity := by
  obtain ⟨⟨signedUpdateBytes, signature⟩, h⟩ :
      ∃ x, decodeSignedEnvelope Sample.runtime Sample.legacyIdentity = .ok x :=
    ⟨_, eq_ok_valueOf (by decide +kernel)⟩
  obtain ⟨_, _, hloads⟩ : ∃ signedUpdateBytes signature,
      Sample.runtime.loads Sample.legacyIdentity =
        some (.dict (Sample.envelopeEntries signedUpdateBytes signature)) :=
    Sample.loads_legacyEnvelope (by decide +kernel)
  have hproper : ∀ v, Sample.runtime.loads Sample.legacyIdentity = some v → Proper v := by
    intro v hv
    obtain rfl := Option.some.inj (hloads.symm.trans hv)
    refine .dict ?_ ?_
    · simp [Sample.envelopeEntries, natEntries, DistinctNumbers]
    · simpa [Sample.envelopeEntries, natEntries] using ⟨.atom _, .atom _⟩
  refine ⟨_, _, h, ((wireEncoding_unique_iff _ Sample.runtime_canonical _ hproper).2.2 _ _ h).2 ?_⟩
  intro v hv
  obtain rfl := Option.some.inj (hloads.symm.trans hv)
  refine .dict ?_ ?_
  · simp [Sample.envelopeEntries, natEntries]
  · simpa [Sample.envelopeEntries, natEntries] using ⟨.atom _, .atom _⟩

namespace Sample

/-- The SignedUpdate of the genesis, with a boolean for the key 1. -/
def booleanUpdate : Bytes :=
  cbor (.dict [(.int 2, .dict []), (.int 3, natValue 1),
    (.int 4, unsortedAuthorization ['a', 'b', 'c']), (.bool true, .dict (identityFields 'a'))])

end Sample

/-- It is accepted as the genesis, which is written otherwise. -/
theorem booleanKey_accepted :
    ∃ u b, decodeMultisignatureSignedUpdate Sample.runtime Sample.booleanUpdate = .ok u ∧
      encodeMultisignatureSignedUpdate Sample.runtime u.recordFields u.payload (natValue u.seq)
        u.authorization.toValue = .ok b ∧ b ≠ Sample.booleanUpdate := by
  have h := eq_ok_valueOf (x := do
    let u ← decodeMultisignatureSignedUpdate Sample.runtime Sample.booleanUpdate
    encodeMultisignatureSignedUpdate Sample.runtime u.recordFields u.payload (natValue u.seq)
      u.authorization.toValue) (by decide +kernel)
  obtain ⟨u, hu, hencode⟩ := bind_eq_ok.1 h
  exact ⟨u, _, hu, hencode, by decide +kernel⟩

end DecentRegistry
