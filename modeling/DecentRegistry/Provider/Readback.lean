import DecentRegistry.Authority.Legacy
import DecentRegistry.Authority.Standalone
import DecentRegistry.Sample.Records

/-!
# Reading back an accepted Provider envelope

Whatever `validate_provider_overwrite` accepts over an existing envelope, `validate_provider_get`
accepts over the same one with the same report, except for one kind of envelope: a replacement of
signers with an active payload is checked against the old signer set when it is written and against
the new one when it is read (`validateProviderOverwrite_readback`).
-/

namespace DecentRegistry

open Fallible PyValue

variable {rt : Runtime}

/-! ## What a result reports -/

namespace ProviderWrite

def objectHash : ProviderWrite → Text
  | overwrite r => r.objectHash
  | withdrawn r => r.objectHash

def seq : ProviderWrite → ℕ
  | overwrite r => r.seq
  | withdrawn r => r.seq

def authorization : ProviderWrite → Option AuthorizationMetadata
  | overwrite r => r.authorization
  | withdrawn r => r.authorization

end ProviderWrite

namespace ProviderRead

def objectHash : ProviderRead → Text
  | payload p => p.objectHash
  | withdrawn r => r.objectHash
  | record r => r.payload.objectHash

/-- The sequence number, which the payload of an active legacy record does not hold. -/
def seq? : ProviderRead → Option ℕ
  | payload _ => none
  | withdrawn r => some r.seq
  | record r => some r.seq

def authorization : ProviderRead → Option AuthorizationMetadata
  | payload _ => none
  | withdrawn r => r.authorization
  | record r => some r.authorization

end ProviderRead

/-- A read reports what the write reported. -/
structure ReportsSame (w : ProviderWrite) (r : ProviderRead) : Prop where
  objectHash : r.objectHash = w.objectHash
  seq : ∀ n ∈ r.seq?, n = w.seq
  authorization : r.authorization = w.authorization

/-- The proofs of a replacement of signers with an active payload are all by distinct signers that
it installs, are valid, and reach its threshold. -/
def ReplacementReadable (rt : Runtime) (e : Bytes) : Prop :=
  ∀ p active, decodeMultisignatureCandidate rt e = .ok p →
    p.authorization.operation = .replaceSigners →
    decodeProviderPayloadDict p.payload = .ok (.active active) →
    validateThresholdProofs rt p.signedUpdateBytes p.envelope p.authorization.signerSet
      p.authorization.threshold = .ok ()

/-! ## Multisignature envelopes -/

theorem extractProviderAndKeys_owner {fields payload : Dict} {key owner : Bytes}
    (h : extractProviderAndKeys fields payload = .ok (key, owner)) :
    fields.get? 1 = some (.atom (.bytes owner)) := by
  simp only [extractProviderAndKeys, bind_eq_ok, orRaise_eq_ok, pure_eq_ok, Prod.mk.injEq,
    Option.bind_eq_some_iff, Value.asBytes?_eq_some] at h
  obtain ⟨_, ⟨_, howner, rfl⟩, -, -, -, -, -, -, -, rfl⟩ := h
  exact howner

/-- The owner of a legacy Provider is the byte string in field 1. -/
theorem LegacyState.Reads.provider_owner {legacy : LegacyState} {recordKey e : Bytes}
    (h : legacy.Reads rt recordKey e) (hkind : legacy.recordKind = .provider) :
    legacy.recordFields.get? 1 = some (.atom (.bytes legacy.ownerPublicKey)) := by
  have hkeys := extractLegacyKeys_eq_ok.1 h.keys
  split at hkeys
  · rw [hkind] at hkeys
    cases hkeys.1
  · exact extractProviderAndKeys_owner hkeys.2

/-- An upgrade keeps the owner. -/
theorem IsUpgrade.provider_owner {recordKey e anchor : Bytes} {p : Candidate} {legacy : LegacyState}
    (h : IsUpgrade rt recordKey p legacy) (hp : p.Reads rt e)
    (hlegacy : legacy.Reads rt recordKey anchor)
    (hkind : p.authorization.recordKind = .provider) :
    ownerPublicKeyField p.authorization.recordKind p.recordFields = .ok legacy.ownerPublicKey := by
  have hlegacyKind : legacy.recordKind = .provider := h.recordKind.symm.trans hkind
  have hbinding := hp.binding
  rw [hkind] at hbinding
  obtain ⟨-, ⟨owner, howner, -⟩, -⟩ := hbinding
  have hsame := h.owner
  simp only [SameOwnerField, hlegacyKind, reduceCtorEq, if_false, howner,
    hlegacy.provider_owner hlegacyKind, Option.bind_some, Value.asBytes?,
    Option.some.injEq] at hsame
  simp [hkind, ownerPublicKeyField, howner, hsame]

/-- The history of a Provider state is not kept. -/
theorem candidateState_provider {p : Candidate} {recordKey : Bytes}
    {history history' : Option (List Bytes)} (hkind : p.authorization.recordKind = .provider) :
    candidateState rt recordKey p history = candidateState rt recordKey p history' := by
  simp [candidateState, hkind]

/-- **An accepted Provider step is acceptable on its own**, but for a replacement of signers. -/
theorem IsStep.standalone {recordKey e : Bytes} {p : Candidate}
    {current : Option MultisignatureState} {anchor : Option Bytes} {history : Option (List Bytes)}
    (hstep : IsStep rt recordKey e p current anchor history) (hp : p.Reads rt e)
    (hkind : p.authorization.recordKind = .provider)
    (hreplace : p.authorization.operation = .replaceSigners →
      ThresholdProofs rt p.signedUpdateBytes p.envelope.proofs p.authorization.signerSet
        p.authorization.threshold) :
    ∃ history', IsStandalone rt recordKey e p history' := by
  cases hstep with
  | genesis h => exact ⟨_, .genesis h⟩
  | ordinaryUpdate h =>
    exact ⟨_, .ownSigners (.inl h.operation) hkind h.lookupKey
      (by rw [h.signerSet, h.threshold]; exact h.proofs)⟩
  | replaceSigners h =>
    exact ⟨_, .ownSigners (.inr h.operation) hkind h.lookupKey (hreplace h.operation)⟩
  | upgrade hlegacy h =>
    obtain ⟨signerId, signature, hproof, hsigner, hvalid⟩ := h.proof
    exact ⟨_, .upgrade h.operation hkind h.lookupKey h.epoch h.threshold h.size
      (h.provider_owner hp hlegacy hkind) hproof hsigner hvalid⟩
  | rotateLegacy _ h =>
    rw [h.recordKind] at hkind
    cases hkind
  | rotate h =>
    obtain ⟨_, -, hrotation⟩ := h.rotation
    rw [hrotation.recordKind] at hkind
    cases hkind

/-- A candidate whose payload is a Provider payload is a Provider candidate. -/
theorem Candidate.Reads.provider_of_payload {p : Candidate} {e : Bytes} (h : p.Reads rt e)
    {payload : ProviderPayload} (hpayload : decodeProviderPayloadDict p.payload = .ok payload) :
    p.authorization.recordKind = .provider := by
  refine RecordKind.eq_provider_of_ne fun hkind => ?_
  have hbinding := h.binding
  rw [hkind] at hbinding
  obtain ⟨-, hempty, -⟩ := hbinding
  rw [hempty] at hpayload
  simp [decodeProviderPayloadDict, isVersion2, decodeActivePayload, Dict.get?, Dict.keysAre,
    Dict.has] at hpayload

/-- An envelope acceptable on its own that replaces signers is signed by the signers it installs. -/
theorem IsStandalone.replacement {recordKey e : Bytes} {p : Candidate}
    {history : Option (List Bytes)} (h : IsStandalone rt recordKey e p history)
    (hop : p.authorization.operation = .replaceSigners) :
    ThresholdProofs rt p.signedUpdateBytes p.envelope.proofs p.authorization.signerSet
      p.authorization.threshold := by
  cases h with
  | genesis h => cases h.operation.symm.trans hop
  | upgrade operation => cases operation.symm.trans hop
  | ownSigners _ _ _ proofs => exact proofs

/-- A multisignature envelope that is accepted over an existing one reads back, unless it replaces
signers with an active payload and not all of its proofs are by signers that it installs, or too
few of them. -/
theorem validateMultisignatureProviderOverwrite_readback {recordKey e : Bytes}
    {existing : Option Bytes} {w : ProviderWrite}
    (h : validateMultisignatureProviderOverwrite rt recordKey e existing = .ok w) :
    (∃ r, validateMultisignatureProviderGet rt recordKey e existing = .ok r ∧ ReportsSame w r) ↔
      ReplacementReadable rt e := by
  simp only [validateMultisignatureProviderOverwrite, bind_eq_ok] at h
  obtain ⟨s, htransition, u, hu, payload, hpayload, h⟩ := h
  obtain ⟨p, history, current, anchor, hp, -, hstep, -, hs⟩ :=
    validateMultisignatureTransition_spec htransition
  obtain rfl : p.update = u := Except.ok.inj ((hp.state hs).update.symm.trans hu)
  have hkind := hp.provider_of_payload hpayload
  have hpayload' : decodeProviderPayloadDict p.payload = .ok payload := hpayload
  have hdecode : decodeMultisignatureSignedUpdate rt p.envelope.signedUpdateBytes = .ok p.update :=
    hp.signedUpdateBytes ▸ hp.update
  cases payload with
  | active active =>
    simp only [bind_eq_ok, pure_eq_ok] at h
    obtain ⟨_, -, owner, -, metadata, hmetadata, rfl⟩ := h
    constructor
    · rintro ⟨r, hr, -⟩ q active' hq hop -
      obtain rfl := hp.unique (decodeMultisignatureCandidate_eq_ok.1 hq)
      simp only [validateMultisignatureProviderGet, hp.envelope, hdecode, hpayload, bind_eq_ok,
        Except.ok.injEq, exists_eq_left', validateMultisignatureEnvelope_eq_ok] at hr
      obtain ⟨_, ⟨q, _, hq, hstandalone, -⟩, -⟩ := hr
      obtain rfl := hp.unique hq
      exact validateThresholdProofs_eq_ok.2 (hstandalone.replacement hop)
    · intro hreplacement
      obtain ⟨history', hstandalone⟩ := hstep.standalone hp hkind fun hop =>
        validateThresholdProofs_eq_ok.1
          (hreplacement p active (decodeMultisignatureCandidate_eq_ok.2 hp) hop hpayload')
      have henvelope : validateMultisignatureEnvelope rt recordKey e = .ok s :=
        validateMultisignatureEnvelope_eq_ok.2
          ⟨p, history', hp, hstandalone, (candidateState_provider hkind).symm ▸ hs⟩
      refine ⟨.record { payload := active, seq := p.update.seq, authorization := metadata }, ?_, ?_⟩
      · simp [validateMultisignatureProviderGet, hp.envelope, hdecode, hpayload, henvelope,
          hmetadata]
      · exact ⟨rfl, by rintro _ ⟨⟩; rfl, rfl⟩
  | withdrawn payload =>
    simp only [bind_eq_ok, orRaise_eq_ok, raiseIf_eq_ok, pure_eq_ok] at h
    obtain ⟨x, rfl, _, -, _, -, _, -, -, -, _, -, _, -, _, -, _, -, _, -, -, -, metadata, hmetadata,
      rfl⟩ := h
    constructor
    · intro _ q active' hq _ hactive
      obtain rfl := hp.unique (decodeMultisignatureCandidate_eq_ok.1 hq)
      cases hpayload'.symm.trans hactive
    · intro _
      refine ⟨.withdrawn
        { objectHash := payload.objectHash, seq := p.update.seq,
          replacementObjectHash := payload.replacementObjectHash, authorization := some metadata,
          predecessorEnvelopeCbor := some x }, ?_, rfl, by rintro _ ⟨⟩; rfl, rfl⟩
      simp [validateMultisignatureProviderGet, hp.envelope, hdecode, hpayload, htransition,
        hmetadata]

/-! ## Legacy envelopes -/

/-- A legacy envelope that is accepted over an existing one reads back. -/
theorem validateLegacyProviderOverwrite_readback {recordKey e : Bytes} {existing : Option Bytes}
    {w : ProviderWrite}
    (h : validateLegacyProviderOverwrite rt recordKey e existing = .ok w) :
    ∃ r, validateLegacyProviderGet rt recordKey e existing = .ok r ∧ ReportsSame w r := by
  simp only [validateLegacyProviderOverwrite, bind_eq_ok, raiseIf_eq_ok, orRaise_eq_ok,
    Prod.exists] at h
  obtain ⟨-, hlegacy, bytes, signature, hsigned, u, hoverwrite, u', hu', _, hfield, owner,
    howner, payload, hpayload, h⟩ := h
  obtain ⟨hstrict, kind, owner', hkeys, hvalid, -⟩ :=
    validateSignedUpdateOverwrite_eq_ok.1 hoverwrite
  obtain rfl := Except.ok.inj ((decodeSignedUpdateStrict_eq_ok.1 hstrict).1.symm.trans hu')
  -- without an accepted entry there is nothing to follow
  have hfresh : (validateSignedUpdateOverwrite rt recordKey bytes signature false).result
      (fun _ => none) = .ok u :=
    validateSignedUpdateOverwrite_eq_ok.2
      ⟨hstrict, kind, owner', hkeys, hvalid, by simp [MayFollow]⟩
  rw [Value.asBytes?_eq_some] at howner
  subst howner
  cases payload with
  | active active =>
    simp only [pure_eq_ok] at h
    subst h
    refine ⟨.payload active, ?_, rfl, by rintro _ ⟨⟩, rfl⟩
    simp [validateLegacyProviderGet, hsigned, hu', hpayload, hfresh]
  | withdrawn payload =>
    simp only [bind_eq_ok, orRaise_eq_ok] at h
    obtain ⟨x, rfl, h⟩ := h
    simp only [Option.mem_def, Option.some.injEq, exists_eq_left', Bool.not_eq_true] at hlegacy
    simp only [hlegacy, Bool.false_eq_true, if_false, bind_eq_ok, raiseIf_eq_ok, pure_eq_ok,
      checkLegacyPredecessorOfLegacy, Prod.exists, getItem_eq_ok, not_or, not_not] at h
    obtain ⟨_, ⟨xbytes, xsignature, hx, xu, hxu, v, hv, xowner, hxowner, valid, hxvalid, -,
      ⟨hxv, rfl⟩, xpayload, hxpayload, hmatch⟩, hash, hhash, -, rfl, rfl⟩ := h
    obtain rfl : valid = true := by simpa using hxv
    cases xpayload with
    | withdrawn _ => simp at hmatch
    | active xactive =>
      simp only [bind_eq_ok, raiseIf_eq_ok, not_not] at hmatch
      obtain ⟨-, hsame, hnewer⟩ := hmatch
      refine ⟨.withdrawn
        { objectHash := payload.objectHash, seq := u.seq,
          replacementObjectHash := payload.replacementObjectHash, authorization := none,
          predecessorEnvelopeCbor := some x }, ?_, rfl, by rintro _ ⟨⟩; rfl, rfl⟩
      simp [validateLegacyProviderGet, validateLegacyProviderWithdrawal, hsigned, hu', hpayload,
        hfresh, hx, hxu, hv, hxowner, hxvalid, hxpayload, hsame, hhash, hfield, hnewer]

/-- **Readback.** An accepted Provider envelope is readable over the same existing envelope, with
the same report, exactly when it is not a replacement of signers with an active payload or every one
of its proofs is by a signer that it installs and they reach its threshold. -/
theorem validateProviderOverwrite_readback (rt : Runtime) (recordKey e : Bytes)
    (existing : Option Bytes) (w : ProviderWrite)
    (h : validateProviderOverwrite rt recordKey e existing = .ok w) :
    (∃ r, validateProviderGet rt recordKey e existing = .ok r ∧ ReportsSame w r) ↔
      ReplacementReadable rt e := by
  unfold validateProviderOverwrite at h
  unfold validateProviderGet
  cases hmultisig : isMultisignatureEnvelope rt e with
  | true =>
    rw [if_pos hmultisig] at h
    simpa using validateMultisignatureProviderOverwrite_readback h
  | false =>
    rw [if_neg (by simp [hmultisig])] at h
    refine iff_of_true ?_ ?_
    · simpa using validateLegacyProviderOverwrite_readback h
    · intro p _ hp
      have := isMultisignatureEnvelope_of_decode (decodeMultisignatureCandidate_eq_ok.1 hp).envelope
      rw [hmultisig] at this
      cases this

namespace Sample

/-- The withdrawal over a legacy record is accepted, and can be read. -/
theorem legacyWithdrawal_readable :
    (validateProviderOverwrite runtime providerKey legacyWithdrawal (some legacyProvider)).isOk =
        true ∧
      (validateProviderGet runtime providerKey legacyWithdrawal (some legacyProvider)).isOk =
        true := by
  decide +kernel

/-- So is the withdrawal over a multisignature record. -/
theorem providerWithdrawal_readable :
    (validateProviderOverwrite runtime providerKey providerWithdrawal
        (some providerGenesis)).isOk = true ∧
      (validateProviderGet runtime providerKey providerWithdrawal
        (some providerGenesis)).isOk = true := by
  decide +kernel

/-- It replaces no signers. -/
theorem providerWithdrawal_replaces_none : ReplacementReadable runtime providerWithdrawal := by
  intro p _ hp hop _
  have hoperation : (fun p => p.authorization.operation) <$>
      decodeMultisignatureCandidate runtime providerWithdrawal = .ok .ordinaryUpdate := by
    decide +kernel
  rw [hp] at hoperation
  cases hop.symm.trans (Except.ok.inj hoperation)

end Sample

/-- A withdrawal reads back as it was written. -/
theorem providerWithdrawal_readback :
    ∃ w r, validateProviderOverwrite Sample.runtime Sample.providerKey Sample.providerWithdrawal
        (some Sample.providerGenesis) = .ok w ∧
      validateProviderGet Sample.runtime Sample.providerKey Sample.providerWithdrawal
        (some Sample.providerGenesis) = .ok r ∧ ReportsSame w r := by
  have h := eq_ok_valueOf Sample.providerWithdrawal_readable.1
  obtain ⟨r, hread, hsame⟩ := (validateProviderOverwrite_readback _ _ _ _ _ h).2
    Sample.providerWithdrawal_replaces_none
  exact ⟨_, r, h, hread, hsame⟩

/-- **An accepted replacement that cannot be read.** Two of the old signers `a`, `b`, `c` replace
them by `c`, `d`, `e`, and neither is among the new ones. -/
theorem providerReplacement_unreadable :
    (∃ w, validateProviderOverwrite Sample.runtime Sample.providerKey Sample.providerReplacement
        (some Sample.providerGenesis) = .ok w) ∧
      (validateProviderGet Sample.runtime Sample.providerKey Sample.providerReplacement
        (some Sample.providerGenesis)).isOk = false := by
  obtain ⟨haccepted, hunreadable⟩ :
      (validateProviderOverwrite Sample.runtime Sample.providerKey Sample.providerReplacement
        (some Sample.providerGenesis)).isOk = true ∧
      (validateProviderGet Sample.runtime Sample.providerKey Sample.providerReplacement
        (some Sample.providerGenesis)).isOk = false := by
    decide +kernel
  exact ⟨⟨_, eq_ok_valueOf haccepted⟩, hunreadable⟩

end DecentRegistry
