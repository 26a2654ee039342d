import DecentRegistry.Authority.Legacy
import DecentRegistry.Foundations.OwnedRegister
import DecentRegistry.Model.EnvelopeBuilder
import DecentRegistry.Wire.Reading

/-!
# What is built is read

An Identity envelope that `build_identity_envelope` returns reads as a legacy Identity, of the owner
with whose key it was built, with the sequence number and the name that it was built with
(`IdentityEntry.reads_of_build`). The CBOR package is only used to decode what it encoded. -/

namespace DecentRegistry

open Fallible PyValue

variable {rt : Runtime} {keys : KeyStore}

/-! ## Signed envelopes -/

/-- A SignedUpdate without authorization. -/
def updateValue (recordFields payload : Dict) (n : ℕ) : Value :=
  .dict [(.int 1, .dict recordFields), (.int 2, .dict payload), (.int 3, natValue n)]

/-- A legacy envelope. -/
def envelopeValue (signedUpdateBytes signature : Bytes) : Value :=
  .dict [(.int 1, .atom (.bytes signedUpdateBytes)), (.int 2, .atom (.bytes signature))]

/-- Two byte strings under the keys 1 and 2. -/
theorem plain_bytesFields (a b : Bytes) :
    Plain (.dict [(.int 1, .atom (.bytes a)), (.int 2, .atom (.bytes b))]) := by
  refine @Plain.dict [(1, .atom (.bytes a)), (2, .atom (.bytes b))] (by simp) ?_
  simp only [List.mem_cons, List.not_mem_nil, or_false]
  rintro e (rfl | rfl)
  · exact .bytes _
  · exact .bytes _

theorem plain_updateValue {recordFields payload : Dict} {n : ℕ}
    (hfields : Plain (.dict recordFields))
    (hpayload : Plain (.dict payload)) : Plain (updateValue recordFields payload n) := by
  refine @Plain.dict [(1, .dict recordFields), (2, .dict payload), (3, natValue n)] (by simp) ?_
  simp only [List.mem_cons, List.not_mem_nil, or_false]
  rintro e (rfl | rfl | rfl)
  · exact hfields
  · exact hpayload
  · exact .int _

/-- What is encoded is canonical. -/
theorem isCanonicalCbor_of_dumps (hrt : rt.RoundTrips) {v : Value} {b : Bytes} (hv : Plain v)
    (h : rt.dumps v = some b) : isCanonicalCbor rt b = true := by
  simp [isCanonicalCbor, hrt v b hv h, h]

/-- **A SignedUpdate without authorization is decoded as it was encoded.** -/
theorem decode_of_encodeSignedUpdate (hrt : rt.RoundTrips) {recordFields payload : Dict} {seq : Int}
    {b : Bytes} (hfields : Plain (.dict recordFields)) (hpayload : Plain (.dict payload))
    (h : encodeSignedUpdate rt recordFields payload (.atom (.int seq)) none = .ok b) :
    ∃ n : ℕ, seq = n ∧ rt.loads b = some (updateValue recordFields payload n) ∧
      decodeCanonicalSignedUpdate rt b =
        .ok { recordFields, payload, seq := n, authorization := none } := by
  simp only [encodeSignedUpdate, bind_eq_ok, requireUint_eq_ok, canonicalCbor, orRaise_eq_ok] at h
  obtain ⟨n, hseq, _, hfieldKeys, _, hpayloadKeys, hdumps⟩ := h
  have hplain : Plain (updateValue recordFields payload n) := plain_updateValue hfields hpayload
  have hloads : rt.loads b = some (updateValue recordFields payload n) := hrt _ _ hplain hdumps
  refine ⟨n, by simpa [natValue] using hseq, hloads, ?_⟩
  simp only [decodeCanonicalSignedUpdate, isCanonicalCbor_of_dumps hrt hplain hdumps, loads, hloads,
    bind_eq_ok, raiseIf_eq_ok, orRaise_eq_ok]
  refine ⟨(), by simp, _, rfl, _, rfl, ?_⟩
  simp only [validateDecodedSignedUpdate, bind_eq_ok, raiseIf_eq_ok, getItem_eq_ok, orRaise_eq_ok,
    requireUint_eq_ok]
  exact ⟨(), by simp [Dict.keysAre, Dict.has], _, rfl, _, rfl, _, rfl, _, rfl, (), hfieldKeys, (),
    hpayloadKeys, _, rfl, n, rfl, rfl⟩

/-- **An envelope is decoded as it was encoded.** -/
theorem decode_of_encodeSignedEnvelope (hrt : rt.RoundTrips) {recordFields payload : Dict} {n : ℕ}
    {signedUpdateBytes signature e : Bytes}
    (hupdate : rt.loads signedUpdateBytes = some (updateValue recordFields payload n))
    (h : encodeSignedEnvelope rt signedUpdateBytes signature = .ok e) :
    decodeSignedEnvelope rt e = .ok (signedUpdateBytes, signature) := by
  simp only [encodeSignedEnvelope, canonicalCbor, orRaise_eq_ok] at h
  have hplain : Plain (envelopeValue signedUpdateBytes signature) := plain_bytesFields _ _
  have hloads : rt.loads e = some (envelopeValue signedUpdateBytes signature) := hrt _ _ hplain h
  simp only [decodeSignedEnvelope, isCanonicalCbor_of_dumps hrt hplain h, loads, hloads, bind_eq_ok,
    raiseIf_eq_ok, orRaise_eq_ok, getItem_eq_ok, pure_eq_ok, carriesAuthorization]
  refine ⟨(), by simp, _, rfl, _, rfl, (), by simp [Dict.keysAre, Dict.has], _, rfl, _, rfl, _, rfl,
    _, rfl, (), ?_, rfl⟩
  simp [hupdate, updateValue, Dict.has]

/-! ## Identities -/

/-- What a legacy Identity says: its owner, its sequence number, and the name. -/
abbrev IdentityEntry := OwnedRegister.Entry Bytes Bytes

namespace IdentityEntry

/-- The envelope reads as a legacy Identity that says this. -/
def Reads (rt : Runtime) (recordKey e : Bytes) (entry : IdentityEntry) : Prop :=
  ∃ legacy : LegacyState, legacy.Reads rt recordKey e ∧ legacy.recordKind = .identity ∧
    legacy.ownerPublicKey = entry.owner ∧ legacy.seq = entry.seq ∧
    legacy.recordFields.get? 1 = some (.atom (.bytes entry.value))

/-- The signature over an Identity is verified by the public key of its owner. -/
def Verifies (rt : Runtime) (keys : KeyStore) (sk : keys.PrivateKey)
    (ownerName : Bytes) (seq : Int) :
    Prop :=
  ∀ u, encodeSignedUpdate rt (identityRecordFields ownerName (keys.publicKey sk)) []
      (.atom (.int seq)) none = .ok u →
    rt.ed25519Verify (keys.publicKey sk) (rt.sha256 u) (keys.sign sk (rt.sha256 u)) = .ok true

/-- **What `build_identity_envelope` returns** reads as what it was built from. -/
theorem reads_of_build (hrt : rt.RoundTrips) {ownerNameHex path : Text} {seq : Int} {e : Bytes}
    (h : buildIdentityEnvelope rt keys ownerNameHex path seq = .ok e) :
    ∃ sk ownerName, keys.load path = .ok sk ∧ fromHex ownerNameHex = .ok ownerName ∧
      (Verifies rt keys sk ownerName seq → ∃ n : ℕ, seq = n ∧
        Reads rt (rt.sha256 ownerName) e ⟨keys.publicKey sk, n, ownerName⟩) := by
  simp only [buildIdentityEnvelope, loadEd25519Keypair, parseHexBytes, signRecord, bind_eq_ok,
    pure_eq_ok, rewrap_eq_ok, Prod.exists, Prod.mk.injEq] at h
  obtain ⟨_, _, ⟨sk, hload, rfl, rfl⟩, ownerName, hname, u, hu, he⟩ := h
  refine ⟨sk, ownerName, hload, hname, fun hverifies => ?_⟩
  obtain ⟨n, hn, hloads, hdecode⟩ := decode_of_encodeSignedUpdate hrt
    (plain_bytesFields _ _) (@Plain.dict [] (by simp) (by simp)) hu
  refine ⟨n, hn, ⟨u, identityRecordFields ownerName (keys.publicKey sk), [], n, .identity,
    keys.publicKey sk⟩, ⟨⟨_, decode_of_encodeSignedEnvelope hrt hloads he, hverifies u hu⟩, hdecode,
    ?_⟩, rfl, rfl, rfl, rfl⟩
  have hkeys : extractIdentityAndKeys rt (identityRecordFields ownerName (keys.publicKey sk)) =
      .ok (rt.sha256 ownerName, keys.publicKey sk) :=
    extractIdentityAndKeys_eq_ok.2 ⟨ownerName, rfl, rfl, rfl⟩
  simp [extractLegacyKeys_eq_ok, hkeys]

end IdentityEntry

end DecentRegistry
