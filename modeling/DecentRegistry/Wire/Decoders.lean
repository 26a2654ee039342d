import DecentRegistry.Authority.Decoding
import DecentRegistry.Wire.Reading

/-!
# What the decoders read

The three decoders accept the bytes that `cbor2` writes for the dictionary it loads from them, when
that dictionary has the right shape (`decodeSignedEnvelope_eq_ok`,
`decodeMultisignatureSignedUpdate_iff`, `decodeMultisignatureEnvelope_eq_ok`). The multisignature
encoder writes one dictionary (`MultisignatureUpdate.toValue`,
`encodeMultisignatureSignedUpdate_eq_ok`).
-/

namespace DecentRegistry

open Fallible PyValue DistinctReading

variable {rt : Runtime}

/-- The bytes are the canonical encoding of the dictionary they are loaded as. -/
def LoadsDict (rt : Runtime) (data : Bytes) (map : Dict) : Prop :=
  rt.loads data = some (.dict map) ∧ rt.dumps (.dict map) = some data

theorem isCanonicalCbor_iff {data : Bytes} {map : Dict} (h : rt.loads data = some (.dict map)) :
    isCanonicalCbor rt data = true ↔ rt.dumps (.dict map) = some data := by
  simp [isCanonicalCbor, h]

/-- The shape that all three decoders begin with. -/
theorem loadsDict_iff {α : Type} {data : Bytes} {e e' : PyError} {f : Dict → Py α} {a : α} :
    (do raiseIf (!isCanonicalCbor rt data) e
        let decoded ← loads rt data
        let map ← orRaise decoded.asDict? e'
        f map) = .ok a ↔ ∃ map, LoadsDict rt data map ∧ f map = .ok a := by
  simp only [loads, bind_eq_ok, raiseIf_eq_ok, orRaise_eq_ok, Value.asDict?_eq_some, exists_const]
  constructor
  · rintro ⟨hcanonical, _, hloads, map, rfl, hf⟩
    exact ⟨map, ⟨hloads, (isCanonicalCbor_iff hloads).1 (by simpa using hcanonical)⟩, hf⟩
  · rintro ⟨map, ⟨hloads, hdumps⟩, hf⟩
    exact ⟨by simpa using (isCanonicalCbor_iff hloads).2 hdumps, _, hloads, map, rfl, hf⟩

/-! ## SignedUpdates -/

/-- All keys are non-negative integers. -/
def UintKeys (d : Dict) : Prop := ∀ e ∈ d, ∃ n : ℕ, e.1 = .int n

theorem isUint_iff {a : Atom} : isUint a = true ↔ ∃ n : ℕ, a = .int n := by
  constructor
  · intro h
    cases a <;> simp [isUint] at h
    exact ⟨_, by rw [Int.toNat_of_nonneg h]⟩
  · rintro ⟨n, rfl⟩
    simp [isUint]

theorem validateUintKeys_eq_ok {d : Dict} {name : String} {u : Unit} :
    validateUintKeys d name = .ok u ↔ UintKeys d := by
  simp only [validateUintKeys, raiseIf_eq_ok, UintKeys, ← isUint_iff]
  simp

/-- The SignedUpdate is what the dictionary holds. -/
structure MultisignatureUpdate.IsRead (u : MultisignatureUpdate) (map : Dict) : Prop where
  keys : map.keysAre [1, 2, 3, 4] = true
  recordFields : map.get? 1 = some (.dict u.recordFields)
  payload : map.get? 2 = some (.dict u.payload)
  fieldKeys : UintKeys u.recordFields
  payloadKeys : UintKeys u.payload
  seq : map.get? 3 = some (natValue u.seq)
  authorization : ∃ entries signerSet, map.get? 4 = some (.dict entries) ∧
    u.authorization.IsRead entries signerSet
  sorted : u.authorization.sorted = u.authorization
  binding : RecordBinding u.recordFields u.payload u.authorization.recordKind

/-- **The multisignature decoder** reads canonical dictionaries of the shape. -/
theorem decodeMultisignatureSignedUpdate_iff {data : Bytes} {u : MultisignatureUpdate} :
    decodeMultisignatureSignedUpdate rt data = .ok u ↔
      ∃ map, LoadsDict rt data map ∧ u.IsRead map := by
  rw [decodeMultisignatureSignedUpdate_eq_ok, decodeCanonicalSignedUpdate, loadsDict_iff]
  refine exists_congr fun map => and_congr_right fun _ => ?_
  simp only [validateDecodedSignedUpdate, bind_eq_ok, raiseIf_eq_ok, orRaise_eq_ok, getItem_eq_ok,
    Value.asDict?_eq_some, validateUintKeys_eq_ok, requireUint_eq_ok, exists_const]
  constructor
  · rintro ⟨hkeys, _, h₁, fields, rfl, _, h₂, payload, rfl, hfields, hpayload, _, h₃, n, rfl, h⟩
    split at h
    · have hnone := congrArg SignedUpdate.authorization (pure_eq_ok.1 h)
      cases hnone
    · rename_i value h₄
      simp only [bind_eq_ok, pure_eq_ok, validateAuthorizationMap_eq_ok,
        validateRecordKindBinding_eq_ok, exists_const] at h
      obtain ⟨a, ⟨entries, signerSet, read, rfl, hread, ha, hsame⟩, hbinding, heq⟩ := h
      obtain rfl := hsame trivial
      obtain ⟨rfl, rfl, rfl, ha'⟩ : fields = u.recordFields ∧ payload = u.payload ∧ n = u.seq ∧
          some a = some u.authorization := by simpa using heq
      obtain rfl := Option.some.inj ha'
      refine ⟨?_, h₁, h₂, hfields, hpayload, h₃, ⟨entries, signerSet, h₄, hread⟩, ha.symm, hbinding⟩
      -- the key 4 is there, so these are the four keys
      by_contra hfour
      have hthree : map.keysAre [1, 2, 3] = true := by simpa [hfour] using hkeys
      rw [Dict.get?_eq_none_of_keysAre hthree (by simp)] at h₄
      cases h₄
  · intro h
    obtain ⟨entries, signerSet, h₄, hread⟩ := h.authorization
    refine ⟨by simp [h.keys], _, h.recordFields, _, rfl, _, h.payload, _, rfl, h.fieldKeys,
      h.payloadKeys, _, h.seq, _, rfl, ?_⟩
    rw [h₄]
    simp only [bind_eq_ok, pure_eq_ok, validateAuthorizationMap_eq_ok,
      validateRecordKindBinding_eq_ok, exists_const]
    exact ⟨u.authorization, ⟨entries, signerSet, u.authorization, rfl, hread, h.sorted.symm,
      fun _ => rfl⟩, h.binding, rfl⟩

/-- The dictionary that is written for a SignedUpdate. -/
def MultisignatureUpdate.toValue (u : MultisignatureUpdate) : Value :=
  .dict [(.int 1, .dict u.recordFields), (.int 2, .dict u.payload), (.int 3, natValue u.seq),
    (.int 4, u.authorization.toValue)]

/-- **The multisignature encoder** writes what it was given, with the signers sorted. -/
theorem encodeMultisignatureSignedUpdate_eq_ok {recordFields payload : Dict}
    {seq authorization : Value} {b : Bytes} :
    encodeMultisignatureSignedUpdate rt recordFields payload seq authorization = .ok b ↔
      ∃ n entries signerSet a, seq = natValue n ∧ authorization = .dict entries ∧
        Authorization.IsRead a entries signerSet ∧ UintKeys recordFields ∧ UintKeys payload ∧
        RecordBinding recordFields payload a.recordKind ∧
        rt.dumps (MultisignatureUpdate.toValue ⟨recordFields, payload, n, a.sorted⟩) = some b := by
  simp only [encodeMultisignatureSignedUpdate, encodeSignedUpdate, bind_eq_ok, requireUint_eq_ok,
    validateUintKeys_eq_ok, validateAuthorizationMap_eq_ok, validateRecordKindBinding_eq_ok,
    canonicalCbor, orRaise_eq_ok, exists_const]
  constructor
  · rintro ⟨n, rfl, hfields, hpayload, _, ⟨entries, signerSet, a, rfl, hread, rfl, -⟩, hbinding,
      hdumps⟩
    exact ⟨n, entries, signerSet, a, rfl, rfl, hread, hfields, hpayload, hbinding, hdumps⟩
  · rintro ⟨n, entries, signerSet, a, rfl, rfl, hread, hfields, hpayload, hbinding, hdumps⟩
    exact ⟨n, rfl, hfields, hpayload, _,
      ⟨entries, signerSet, a, rfl, hread, rfl, by simp⟩, hbinding,
      hdumps⟩

/-! ## Envelopes -/

/-- The legacy decoder. -/
theorem decodeSignedEnvelope_eq_ok {data signedUpdateBytes signature : Bytes} :
    decodeSignedEnvelope rt data = .ok (signedUpdateBytes, signature) ↔
      ∃ map, LoadsDict rt data map ∧ map.keysAre [1, 2] = true ∧
        map.get? 1 = some (.atom (.bytes signedUpdateBytes)) ∧
        map.get? 2 = some (.atom (.bytes signature)) ∧
        carriesAuthorization rt signedUpdateBytes = false := by
  rw [decodeSignedEnvelope, loadsDict_iff]
  refine exists_congr fun map => and_congr_right fun _ => ?_
  simp only [bind_eq_ok, raiseIf_eq_ok, orRaise_eq_ok, getItem_eq_ok, Value.asBytes?_eq_some,
    pure_eq_ok, exists_const, Bool.not_eq_true, Bool.not_eq_false']
  constructor
  · rintro ⟨hkeys, _, h₁, _, rfl, _, h₂, _, rfl, hlegacy, heq⟩
    obtain ⟨rfl, rfl⟩ := Prod.mk.inj heq
    exact ⟨hkeys, h₁, h₂, hlegacy⟩
  · rintro ⟨hkeys, h₁, h₂, hlegacy⟩
    exact ⟨hkeys, _, h₁, _, rfl, _, h₂, _, rfl, hlegacy, rfl⟩

/-- The envelope is what the dictionary holds. -/
structure MultisignatureEnvelope.IsRead (rt : Runtime) (envelope : MultisignatureEnvelope)
    (map : Dict) : Prop where
  keys : map.keysAre [1, 2, 3] = true
  version : map.get? 1 = some (.atom (.int envelope.version))
  supported : envelope.version = 1
  signedUpdateBytes : map.get? 2 = some (.atom (.bytes envelope.signedUpdateBytes))
  signedUpdate : ∃ u, decodeMultisignatureSignedUpdate rt envelope.signedUpdateBytes = .ok u
  proofs : ∃ list, map.get? 3 = some (.list list) ∧ ReadsProofs list envelope.proofs
  sorted : sortedBy proofSortKey envelope.proofs = envelope.proofs

/-- The multisignature decoder of envelopes. -/
theorem decodeMultisignatureEnvelope_eq_ok {data : Bytes} {envelope : MultisignatureEnvelope} :
    decodeMultisignatureEnvelope rt data = .ok envelope ↔
      ∃ map, LoadsDict rt data map ∧ envelope.IsRead rt map := by
  rw [decodeMultisignatureEnvelope, loadsDict_iff]
  refine exists_congr fun map => and_congr_right fun _ => ?_
  have hproofs {v : Value} {proofs : List Proof} : validateProofs v false true = .ok proofs ↔
      ∃ list, v = .list list ∧ ReadsProofs list proofs ∧
        sortedBy proofSortKey proofs = proofs := by
    rw [show true = !false from rfl, validateProofs_eq_ok]
    constructor
    · rintro ⟨list, read, rfl, hread, hsorted, hsame⟩
      obtain rfl := hsame rfl
      exact ⟨list, rfl, hread, hsorted.symm⟩
    · rintro ⟨list, rfl, hread, hsorted⟩
      exact ⟨list, proofs, rfl, hread, hsorted.symm, fun _ => rfl⟩
  simp only [bind_eq_ok, raiseIf_eq_ok, orRaise_eq_ok, getItem_eq_ok, Value.asBytes?_eq_some,
    Value.asInt?_eq_some, pure_eq_ok, exists_const, Bool.not_eq_true, Bool.not_eq_false', hproofs]
  constructor
  · rintro ⟨hkeys, _, h₁, version, rfl, hversion, _, h₂, bytes, rfl, u, hu, _, h₃, proofs,
      ⟨list, rfl, hread, hsorted⟩, rfl⟩
    exact ⟨hkeys, h₁, not_not.1 hversion, h₂, ⟨u, hu⟩, ⟨list, h₃, hread⟩, hsorted⟩
  · intro h
    obtain ⟨u, hu⟩ := h.signedUpdate
    obtain ⟨list, h₃, hread⟩ := h.proofs
    exact ⟨h.keys, _, h.version, _, rfl, not_not.2 h.supported, _,
      h.signedUpdateBytes, _, rfl, u, hu,
      _, h₃, _, ⟨list, rfl, hread, h.sorted⟩, rfl⟩

end DecentRegistry
