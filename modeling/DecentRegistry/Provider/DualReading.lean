import DecentRegistry.Provider.Readback

/-!
# Legacy Provider envelopes that also read as Identity Records

The validator of legacy updates takes an envelope for an Identity Record when its record fields 1
and 2 are byte strings. The Provider path calls it without saying which record it expects, and then
reads the accepted envelope as a Provider Record: the owner from field 1, the key from the payload.
For every other envelope the two agree, and acceptance binds record key, payload and signer
(`legacyProvider_bound_iff`).
-/

namespace DecentRegistry

open Fallible PyValue

/-! ## The Provider reading -/

/-- An envelope read as a Provider Record. -/
structure ProviderReading where
  ownerPublicKey : Bytes
  payload : ProviderPayload
  seq : ℕ
  deriving DecidableEq

variable (rt : Runtime)

/-- The reading of the Provider path, of legacy and multisignature envelopes alike: the owner is
`bytes(record_fields[1])`. -/
def readAsProvider (e : Bytes) : Py ProviderReading := do
  let signedUpdateBytes ← signedUpdateOf rt e
  let signedUpdate ← decodeCanonicalSignedUpdate rt signedUpdateBytes
  let payload ← decodeProviderPayloadDict signedUpdate.payload
  let ownerPublicKey ← toBytes (← getItem signedUpdate.recordFields 1)
  return { ownerPublicKey, payload, seq := signedUpdate.seq }

/-- The signature of a legacy envelope is one by `owner`. -/
def SignedBy (owner e : Bytes) : Prop :=
  ∃ signedUpdateBytes signature, decodeSignedEnvelope rt e = .ok (signedUpdateBytes, signature) ∧
    verifyEd25519Signature rt owner signedUpdateBytes signature = .ok true

/-- The record key is the accepted object hash, and the signature is one by the owner that the
Provider path reads. -/
def BindsOwner (recordKey e : Bytes) (objectHash : Text) : Prop :=
  fromHex objectHash = .ok recordKey ∧
    ∃ reading, readAsProvider rt e = .ok reading ∧ SignedBy rt reading.ownerPublicKey e

/-- Whenever the write path or the read path accepts the legacy envelope, record key, payload and
signer are bound to each other. -/
def LegacyAcceptanceBinds (recordKey e : Bytes) (existing : Option Bytes) : Prop :=
  isMultisignatureEnvelope rt e = false →
    (∀ w, validateProviderOverwrite rt recordKey e existing = .ok w →
        BindsOwner rt recordKey e w.objectHash) ∧
      ∀ r, validateProviderGet rt recordKey e existing = .ok r →
        BindsOwner rt recordKey e r.objectHash

/-- The active legacy envelope that a tombstone of `owner` withdraws. -/
structure IsLegacyPredecessor (recordKey owner : Bytes) (tombstone : ProviderWithdrawnPayloadV2)
    (seq : ℕ) (existing : Bytes) : Prop where
  signed : SignedBy rt owner existing
  active : ∃ active existingSeq, readAsProvider rt existing =
      .ok { ownerPublicKey := owner, payload := .active active, seq := existingSeq } ∧
    active.objectHash = tombstone.objectHash ∧ existingSeq < seq
  recordKey : fromHex tombstone.objectHash = .ok recordKey

/-- The envelope reads as a legacy Identity of `recordKey`, signed by the key in field 2. -/
def ReadsAsIdentity (recordKey e : Bytes) : Prop :=
  ∃ legacy, decodeLegacyState rt recordKey e = .ok legacy ∧ legacy.recordKind = .identity

/-- **The failing inputs.** An Identity by its fields and a Provider Record by its payload, which is
active or withdraws `existing`; but the payload names another key, or field 1 is not the key that
signed it. -/
def Misread (recordKey e : Bytes) (existing : Option Bytes) : Prop :=
  ReadsAsIdentity rt recordKey e ∧ ∃ reading, readAsProvider rt e = .ok reading ∧
    (∀ tombstone, reading.payload = .withdrawn tombstone → ∃ x, existing = some x ∧
      IsLegacyPredecessor rt recordKey reading.ownerPublicKey tombstone reading.seq x) ∧
    ¬ (fromHex reading.payload.objectHash = .ok recordKey ∧ SignedBy rt reading.ownerPublicKey e)

variable {rt}

/-! ## What the read path accepts -/

theorem signedUpdateOf_of_legacy {e signedUpdateBytes signature : Bytes}
    (h : decodeSignedEnvelope rt e = .ok (signedUpdateBytes, signature)) :
    signedUpdateOf rt e = .ok signedUpdateBytes := by
  simp [signedUpdateOf, isMultisignatureEnvelope_of_legacy h, h]

/-- The reading of an envelope whose SignedUpdate is known. -/
theorem readAsProvider_eq_ok {e signedUpdateBytes : Bytes} {u : SignedUpdate}
    {reading : ProviderReading} (hbytes : signedUpdateOf rt e = .ok signedUpdateBytes)
    (hu : decodeCanonicalSignedUpdate rt signedUpdateBytes = .ok u) :
    readAsProvider rt e = .ok reading ↔
      decodeProviderPayloadDict u.payload = .ok reading.payload ∧
        (∃ v, u.recordFields.get? 1 = some v ∧ toBytes v = .ok reading.ownerPublicKey) ∧
        u.seq = reading.seq := by
  simp only [readAsProvider, hbytes, hu, bind_eq_ok, Except.ok.injEq, exists_eq_left',
    getItem_eq_ok, pure_eq_ok]
  constructor
  · rintro ⟨payload, hpayload, v, hv, owner, howner, rfl⟩
    exact ⟨hpayload, ⟨v, hv, howner⟩, rfl⟩
  · rintro ⟨hpayload, ⟨v, hv, howner⟩, hseq⟩
    exact ⟨_, hpayload, v, hv, _, howner, by rw [hseq]⟩

/-- Field 1 of a legacy record is a byte string in both readings. -/
theorem LegacyState.Reads.field_one {legacy : LegacyState} {recordKey e : Bytes}
    (h : legacy.Reads rt recordKey e) :
    ∃ owner, legacy.recordFields.get? 1 = some (.atom (.bytes owner)) := by
  cases hkind : legacy.recordKind with
  | identity =>
    obtain ⟨ownerName, hname, -⟩ := h.identity hkind
    exact ⟨ownerName, hname⟩
  | provider => exact ⟨_, h.provider_owner hkind⟩

/-- A legacy record reads as a Provider Record if its payload is one. -/
theorem LegacyState.Reads.provider_reading {legacy : LegacyState} {recordKey e : Bytes}
    (h : legacy.Reads rt recordKey e) {reading : ProviderReading} :
    readAsProvider rt e = .ok reading ↔
      decodeProviderPayloadDict legacy.payload = .ok reading.payload ∧
        legacy.recordFields.get? 1 = some (.atom (.bytes reading.ownerPublicKey)) ∧
        legacy.seq = reading.seq := by
  obtain ⟨signature, hsigned, -⟩ := h.signed
  rw [readAsProvider_eq_ok (signedUpdateOf_of_legacy hsigned) h.update]
  obtain ⟨owner, howner⟩ := h.field_one
  simp only [howner, Option.some.injEq, exists_eq_left', toBytes, Except.ok.injEq, Value.atom.injEq,
    Atom.bytes.injEq]

/-- What the checks of the read path on an existing legacy envelope establish. -/
theorem isLegacyPredecessor_iff {recordKey owner existing : Bytes}
    {tombstone : ProviderWithdrawnPayloadV2} {seq : ℕ} :
    IsLegacyPredecessor rt recordKey owner tombstone seq existing ↔
      ∃ signedUpdateBytes signature u v active,
        decodeSignedEnvelope rt existing = .ok (signedUpdateBytes, signature) ∧
        decodeCanonicalSignedUpdate rt signedUpdateBytes = .ok u ∧
        u.recordFields.get? 1 = some v ∧ toBytes v = .ok owner ∧
        decodeProviderPayloadDict u.payload = .ok (.active active) ∧
        verifyEd25519Signature rt owner signedUpdateBytes signature = .ok true ∧
        active.objectHash = tombstone.objectHash ∧
        fromHex tombstone.objectHash = .ok recordKey ∧ u.seq < seq := by
  constructor
  · rintro ⟨⟨bytes, signature, hsigned, hvalid⟩, ⟨active, n, hreading, hhash, hnewer⟩, hkey⟩
    have hbytes := signedUpdateOf_of_legacy hsigned
    obtain ⟨u, hu⟩ : ∃ u, decodeCanonicalSignedUpdate rt bytes = .ok u := by
      simp only [readAsProvider, hbytes, bind_eq_ok, Except.ok.injEq, exists_eq_left'] at hreading
      exact hreading.imp fun u h => h.1
    obtain ⟨hpayload, ⟨v, hv, howner⟩, rfl⟩ := (readAsProvider_eq_ok hbytes hu).1 hreading
    exact ⟨bytes, signature, u, v, active, hsigned, hu, hv, howner, hpayload, hvalid, hhash, hkey,
      hnewer⟩
  · rintro ⟨bytes, signature, u, v, active, hsigned, hu, hv, howner, hpayload, hvalid, hhash, hkey,
      hnewer⟩
    exact ⟨⟨bytes, signature, hsigned, hvalid⟩, ⟨active, u.seq,
      (readAsProvider_eq_ok (signedUpdateOf_of_legacy hsigned) hu).2
        ⟨hpayload, ⟨v, hv, howner⟩, rfl⟩,
      hhash, hnewer⟩, hkey⟩

/-- Without an accepted entry, the overwrite check is the reading of a legacy state. -/
theorem validateSignedUpdateOverwrite_fresh {recordKey e signedUpdateBytes signature : Bytes}
    {u : SignedUpdate}
    (hsigned : decodeSignedEnvelope rt e = .ok (signedUpdateBytes, signature)) :
    (validateSignedUpdateOverwrite rt recordKey signedUpdateBytes signature false).result
        (fun _ => none) = .ok u ↔
      decodeCanonicalSignedUpdate rt signedUpdateBytes = .ok u ∧
        ∃ legacy : LegacyState, legacy.Reads rt recordKey e := by
  constructor
  · intro h
    obtain ⟨hstrict, -⟩ := validateSignedUpdateOverwrite_eq_ok.1 h
    obtain ⟨kind, owner, hreads⟩ := LegacyState.Reads.of_overwrite hsigned h
    exact ⟨(decodeSignedUpdateStrict_eq_ok.1 hstrict).1, _, hreads⟩
  · rintro ⟨hu, legacy, hreads⟩
    obtain ⟨signature', hsigned', hvalid⟩ := hreads.signed
    obtain ⟨rfl, rfl⟩ : signedUpdateBytes = legacy.signedUpdateBytes ∧ signature = signature' :=
      Prod.mk.inj (Except.ok.inj (hsigned.symm.trans hsigned'))
    obtain rfl := Except.ok.inj (hu.symm.trans hreads.update)
    exact validateSignedUpdateOverwrite_eq_ok.2 ⟨decodeSignedUpdateStrict_eq_ok.2 ⟨hu, rfl⟩, _, _,
      hreads.keys, hvalid, by simp [MayFollow]⟩

/-- The report on a withdrawal by a legacy envelope. -/
def legacyWithdrawalResult (tombstone : ProviderWithdrawnPayloadV2) (seq : ℕ) (existing : Bytes) :
    ProviderWithdrawnResult :=
  { objectHash := tombstone.objectHash, seq,
    replacementObjectHash := tombstone.replacementObjectHash,
    authorization := none, predecessorEnvelopeCbor := some existing }

theorem validateLegacyProviderWithdrawal_eq_ok {recordKey e existing : Bytes}
    {r : ProviderWithdrawnResult} :
    validateLegacyProviderWithdrawal rt recordKey e existing = .ok r ↔
      ∃ (legacy : LegacyState) (owner : Bytes) (tombstone : ProviderWithdrawnPayloadV2) (seq : ℕ),
        legacy.Reads rt recordKey e ∧
        readAsProvider rt e = .ok ⟨owner, .withdrawn tombstone, seq⟩ ∧
        IsLegacyPredecessor rt recordKey owner tombstone seq existing ∧
        legacyWithdrawalResult tombstone seq existing = r := by
  simp only [validateLegacyProviderWithdrawal, bind_eq_ok, Prod.exists]
  constructor
  · rintro ⟨bytes, signature, hsigned, u', hfresh, u, hu, payload, hpayload, h⟩
    obtain ⟨-, legacy, hreads⟩ := (validateSignedUpdateOverwrite_fresh hsigned).1 hfresh
    cases payload with
    | active _ => simp at h
    | withdrawn tombstone =>
      simp only [bind_eq_ok, orRaise_eq_ok, getItem_eq_ok, Prod.exists] at h
      obtain ⟨xbytes, xsignature, hx, xu, hxu, xv, hxv, xowner, hxowner, v, hv, owner, howner,
        xpayload, hxpayload, h⟩ := h
      cases xpayload with
      | withdrawn _ => simp at h
      | active active =>
        simp only [bind_eq_ok, raiseIf_eq_ok, pure_eq_ok, not_not, not_le, exists_const,
          Bool.not_eq_true, Bool.not_eq_false'] at h
        obtain ⟨rfl, valid, hvalid, rfl, hhash, key, hkey, rfl, hnewer, rfl⟩ := h
        refine ⟨legacy, xowner, tombstone, u.seq, hreads, ?_, ?_, rfl⟩
        · exact (readAsProvider_eq_ok (signedUpdateOf_of_legacy hsigned) hu).2
            ⟨hpayload, ⟨v, hv, howner⟩, rfl⟩
        · exact isLegacyPredecessor_iff.2
            ⟨xbytes, xsignature, xu, xv, active, hx, hxu, hxv, hxowner,
            hxpayload, hvalid, hhash, hkey, hnewer⟩
  · rintro ⟨legacy, owner, tombstone, seq, hreads, hreading, hpredecessor, rfl⟩
    obtain ⟨hpayload, howner, rfl⟩ := hreads.provider_reading.1 hreading
    obtain ⟨signature, hsigned, -⟩ := hreads.signed
    obtain ⟨xbytes, xsignature, xu, xv, active, hx, hxu, hxv, hxowner, hxpayload, hvalid, hhash,
      hkey, hnewer⟩ := isLegacyPredecessor_iff.1 hpredecessor
    refine ⟨_, signature, hsigned, _, (validateSignedUpdateOverwrite_fresh hsigned).2
      ⟨hreads.update, legacy, hreads⟩, _, hreads.update, _, hpayload, ?_⟩
    simp [hx, hxu, hxv, hxowner, hxpayload, hvalid, hhash, hkey, hnewer, howner,
      legacyWithdrawalResult]

/-- The report of the read path on a legacy envelope. -/
def ProviderReading.result (reading : ProviderReading) (existing : Option Bytes) : ProviderRead :=
  match reading.payload with
  | .active active => .payload active
  | .withdrawn tombstone => .withdrawn
      { objectHash := tombstone.objectHash, seq := reading.seq,
        replacementObjectHash := tombstone.replacementObjectHash, authorization := none,
        predecessorEnvelopeCbor := existing }

theorem ProviderReading.result_objectHash (reading : ProviderReading) (existing : Option Bytes) :
    (reading.result existing).objectHash = reading.payload.objectHash := by
  unfold ProviderReading.result
  cases reading.payload <;> rfl

/-- **What the read path accepts of legacy envelopes**: one that reads as a legacy record, of
whichever kind, and as a Provider Record, with its predecessor if it is a tombstone. -/
theorem validateLegacyProviderGet_eq_ok {recordKey e : Bytes} {existing : Option Bytes}
    {r : ProviderRead} :
    validateLegacyProviderGet rt recordKey e existing = .ok r ↔
      ∃ (legacy : LegacyState) (reading : ProviderReading), legacy.Reads rt recordKey e ∧
        readAsProvider rt e = .ok reading ∧
        (∀ tombstone, reading.payload = .withdrawn tombstone → ∃ x, existing = some x ∧
          IsLegacyPredecessor rt recordKey reading.ownerPublicKey tombstone reading.seq x) ∧
        reading.result existing = r := by
  simp only [validateLegacyProviderGet, bind_eq_ok, Prod.exists]
  constructor
  · rintro ⟨bytes, signature, hsigned, u, hu, payload, hpayload, h⟩
    cases payload with
    | active active =>
      simp only [bind_eq_ok, pure_eq_ok] at h
      obtain ⟨u', hfresh, rfl⟩ := h
      obtain ⟨-, legacy, hreads⟩ := (validateSignedUpdateOverwrite_fresh hsigned).1 hfresh
      obtain ⟨_, hsigned', -⟩ := hreads.signed
      obtain ⟨rfl, -⟩ := Prod.mk.inj (Except.ok.inj (hsigned.symm.trans hsigned'))
      obtain rfl := Except.ok.inj (hu.symm.trans hreads.update)
      obtain ⟨owner, howner⟩ := hreads.field_one
      exact ⟨legacy, ⟨owner, .active active, legacy.seq⟩, hreads,
        hreads.provider_reading.2 ⟨hpayload, howner, rfl⟩, by simp, rfl⟩
    | withdrawn tombstone =>
      simp only [bind_eq_ok, orRaise_eq_ok, pure_eq_ok] at h
      obtain ⟨x, rfl, result, hresult, rfl⟩ := h
      obtain ⟨legacy, owner, tombstone, seq, hreads, hreading, hpredecessor, rfl⟩ :=
        validateLegacyProviderWithdrawal_eq_ok.1 hresult
      exact ⟨legacy, _, hreads, hreading, by simpa using hpredecessor, rfl⟩
  · rintro ⟨legacy, ⟨owner, payload, seq⟩, hreads, hreading, hpredecessor, rfl⟩
    obtain ⟨hpayload, howner, rfl⟩ := hreads.provider_reading.1 hreading
    obtain ⟨signature, hsigned, -⟩ := hreads.signed
    refine ⟨_, signature, hsigned, _, hreads.update, payload, hpayload, ?_⟩
    cases payload with
    | active active =>
      have hfresh := (validateSignedUpdateOverwrite_fresh hsigned).2 ⟨hreads.update, legacy, hreads⟩
      simp [hfresh, ProviderReading.result]
    | withdrawn tombstone =>
      obtain ⟨x, rfl, hx⟩ := hpredecessor tombstone rfl
      have hresult := validateLegacyProviderWithdrawal_eq_ok.2
        ⟨legacy, owner, tombstone, _, hreads, hreading, hx, rfl⟩
      simp [hresult, ProviderReading.result, legacyWithdrawalResult]

/-! ## The binding -/

/-- The record key of a Provider Record is its Object Hash. -/
theorem extractProviderAndKeys_key {fields payload : Dict} {key owner : Bytes}
    {providerPayload : ProviderPayload}
    (h : extractProviderAndKeys fields payload = .ok (key, owner))
    (hpayload : decodeProviderPayloadDict payload = .ok providerPayload) :
    fromHex providerPayload.objectHash = .ok key := by
  simp only [extractProviderAndKeys, hpayload, bind_eq_ok, orRaise_eq_ok, rewrap_eq_ok,
    raiseIf_eq_ok, Except.ok.injEq, exists_eq_left', exists_const, pure_eq_ok,
    Prod.mk.injEq] at h
  obtain ⟨-, -, -, _, hkey, rfl, -⟩ := h
  exact hkey

/-- A record that does not read as an Identity is bound to its key and its owner. -/
theorem LegacyState.Reads.provider_binds {legacy : LegacyState} {recordKey e : Bytes}
    (h : legacy.Reads rt recordKey e) (hkind : legacy.recordKind = .provider)
    {reading : ProviderReading} (hreading : readAsProvider rt e = .ok reading) :
    BindsOwner rt recordKey e reading.payload.objectHash := by
  obtain ⟨hpayload, howner, -⟩ := h.provider_reading.1 hreading
  have hsame : reading.ownerPublicKey = legacy.ownerPublicKey := by
    have := howner.symm.trans (h.provider_owner hkind)
    simpa using this
  have hkey : fromHex reading.payload.objectHash = .ok recordKey := by
    have hkeys := extractLegacyKeys_eq_ok.1 h.keys
    split at hkeys
    · rw [hkind] at hkeys
      cases hkeys.1
    · exact extractProviderAndKeys_key hkeys.2 hpayload
  obtain ⟨signature, hsigned, hvalid⟩ := h.signed
  exact ⟨hkey, reading, hreading, _, signature, hsigned, hsame ▸ hvalid⟩

/-- **Legacy acceptance binds key, payload and signer, except for misread envelopes.** -/
theorem legacyProvider_bound_iff (rt : Runtime) (recordKey e : Bytes) (existing : Option Bytes) :
    LegacyAcceptanceBinds rt recordKey e existing ↔ ¬ Misread rt recordKey e existing := by
  constructor
  · rintro h ⟨⟨legacy, hlegacy, -⟩, reading, hreading, hpredecessor, hunbound⟩
    rw [decodeLegacyState_eq_ok] at hlegacy
    obtain ⟨_, hsigned, -⟩ := hlegacy.signed
    have hmultisig := isMultisignatureEnvelope_of_legacy hsigned
    have hget : validateProviderGet rt recordKey e existing = .ok (reading.result existing) := by
      rw [validateProviderGet, if_neg (by simp [hmultisig])]
      exact validateLegacyProviderGet_eq_ok.2
        ⟨legacy, reading, hlegacy, hreading, hpredecessor, rfl⟩
    obtain ⟨hkey, reading', hreading', hvalid⟩ := (h hmultisig).2 _ hget
    obtain rfl := Except.ok.inj (hreading.symm.trans hreading')
    exact hunbound ⟨reading.result_objectHash existing ▸ hkey, hvalid⟩
  · intro hnot hmultisig
    have hget (r) (h : validateLegacyProviderGet rt recordKey e existing = .ok r) :
        BindsOwner rt recordKey e r.objectHash := by
      obtain ⟨legacy, reading, hreads, hreading, hpredecessor, rfl⟩ :=
        validateLegacyProviderGet_eq_ok.1 h
      rw [reading.result_objectHash]
      cases hkind : legacy.recordKind with
      | provider => exact hreads.provider_binds hkind hreading
      | identity =>
        by_contra hunbound
        refine hnot ⟨⟨legacy, decodeLegacyState_eq_ok.2 hreads, hkind⟩, reading, hreading,
          hpredecessor, ?_⟩
        exact fun ⟨hkey, hvalid⟩ => hunbound ⟨hkey, reading, hreading, hvalid⟩
    rw [validateProviderOverwrite, validateProviderGet, if_neg (by simp [hmultisig]),
      if_neg (by simp [hmultisig])]
    refine ⟨fun w hw => ?_, hget⟩
    -- whatever is accepted for writing is accepted for reading, with the same object hash
    obtain ⟨r, hr, hsame⟩ := validateLegacyProviderOverwrite_readback hw
    exact hsame.objectHash ▸ hget r hr

/-- Whether the signature is one by the owner of the Provider reading. -/
def ownerSigned (rt : Runtime) (e : Bytes) : Py Bool := do
  let reading ← readAsProvider rt e
  let (signedUpdateBytes, signature) ← decodeSignedEnvelope rt e
  verifyEd25519Signature rt reading.ownerPublicKey signedUpdateBytes signature

theorem SignedBy.ownerSigned {e : Bytes} {reading : ProviderReading}
    (h : SignedBy rt reading.ownerPublicKey e) (hreading : readAsProvider rt e = .ok reading) :
    ownerSigned rt e = .ok true := by
  obtain ⟨bytes, signature, hsigned, hvalid⟩ := h
  simp only [DecentRegistry.ownerSigned, hreading, hsigned, ok_bind, hvalid]

/-- **A Provider Record that its owner did not sign.** Field 1 holds the key of `a`, whose hash is
the record key; field 2 holds the key of `e`, who signed the envelope. -/
theorem ambiguousProvider_unbound :
    ¬ LegacyAcceptanceBinds Sample.runtime Sample.namedKey Sample.ambiguousProvider none := by
  intro h
  obtain ⟨hget, hlegacy, hunsigned⟩ :
      (validateProviderGet Sample.runtime Sample.namedKey Sample.ambiguousProvider none).isOk =
        true ∧
      isMultisignatureEnvelope Sample.runtime Sample.ambiguousProvider = false ∧
      ownerSigned Sample.runtime Sample.ambiguousProvider = .ok false := by
    decide +kernel
  obtain ⟨-, reading, hreading, hsigned⟩ := (h hlegacy).2 _ (eq_ok_valueOf hget)
  cases (hsigned.ownerSigned hreading).symm.trans hunsigned

end DecentRegistry
