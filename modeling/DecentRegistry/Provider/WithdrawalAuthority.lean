import DecentRegistry.Authority.Chain
import DecentRegistry.Provider.DualReading
import DecentRegistry.Provider.Withdrawal

/-!
# Who authorizes a withdrawal

A withdrawal that either path of the validator reports is one of the active record of the same key
and owner with a smaller sequence number, signed by that owner, or by a quorum of that record's
signers where the withdrawal names its state (`AuthorizedWithdrawal`). The one exception is a legacy
tombstone that also reads as an Identity and that field 2 signed (`withdrawal_authorized_iff`).
-/

namespace DecentRegistry

open Fallible PyValue

/-! ## Authority -/

/-- The candidate names the state of the existing envelope, and a quorum of its signers approve. -/
def QuorumNaming (rt : Runtime) (existing e : Bytes) : Prop :=
  ∃ p signedUpdateBytes, decodeMultisignatureCandidate rt e = .ok p ∧
    signedUpdateOf rt existing = .ok signedUpdateBytes ∧
    p.authorization.predecessorStateHash = rt.sha256 signedUpdateBytes ∧
    QuorumOfPredecessor rt existing p

/-- The withdrawal `e` is authorized by the active record `existing`. -/
structure AuthorizedWithdrawal (rt : Runtime) (recordKey e existing : Bytes)
    (candidate current : ProviderReading) : Prop where
  reads : readAsProvider rt e = .ok candidate
  existingReads : readAsProvider rt existing = .ok current
  active : ∃ active, current.payload = .active active ∧ fromHex active.objectHash = .ok recordKey
  owner : current.ownerPublicKey = candidate.ownerPublicKey
  seq : current.seq < candidate.seq
  legacy : isMultisignatureEnvelope rt e = false → SignedBy rt candidate.ownerPublicKey e
  multisignature : isMultisignatureEnvelope rt e = true → QuorumNaming rt existing e

/-- Whenever the write path or the read path reports a withdrawal, the existing envelope authorizes
it. -/
def WithdrawalsAuthorized (rt : Runtime) (recordKey e : Bytes) (existing : Option Bytes) : Prop :=
  ∀ r, (validateProviderOverwrite rt recordKey e existing = .ok (.withdrawn r) ∨
      validateProviderGet rt recordKey e existing = .ok (.withdrawn r)) →
    ∃ x candidate current, existing = some x ∧
      AuthorizedWithdrawal rt recordKey e x candidate current

/-- **The failing inputs.** A tombstone over its active legacy predecessor that reads as an Identity
of `recordKey` by its fields, and that field 1 did not sign. -/
def MisreadWithdrawal (rt : Runtime) (recordKey e : Bytes) (existing : Option Bytes) : Prop :=
  ReadsAsIdentity rt recordKey e ∧ ∃ owner tombstone seq x,
    readAsProvider rt e = .ok ⟨owner, .withdrawn tombstone, seq⟩ ∧ existing = some x ∧
    IsLegacyPredecessor rt recordKey owner tombstone seq x ∧ ¬ SignedBy rt owner e

variable {rt : Runtime}

/-! ## Multisignature withdrawals -/

/-- A withdrawal has a multisignature state to step from. -/
theorem validateMultisignatureTransition_withdrawal {recordKey e : Bytes} {existing : Option Bytes}
    {chain : Option (List Bytes)} {s : MultisignatureState} {p : Candidate}
    {tombstone : ProviderWithdrawnPayloadV2}
    (h : validateMultisignatureTransition rt recordKey e existing chain = .ok s)
    (hp : p.Reads rt e)
    (hpayload : decodeProviderPayloadDict p.payload = .ok (.withdrawn tombstone)) :
    ∃ x, existing = some x ∧ isMultisignatureEnvelope rt x = true := by
  have hkind := hp.provider_of_payload hpayload
  have hwithdraws : withdraws p.update = .ok true := by
    rw [withdraws_eq_ok]
    simp only [Candidate.update, hkind]
    exact ⟨_, hpayload, rfl⟩
  have hupdate : decodeMultisignatureSignedUpdate rt p.envelope.signedUpdateBytes = .ok p.update :=
    hp.signedUpdateBytes ▸ hp.update
  simp only [validateMultisignatureTransition, hp.envelope, hupdate, hwithdraws, bind_eq_ok,
    Except.ok.injEq, exists_eq_left', raiseIf_eq_ok, orRaise_eq_ok, if_true, Prod.exists] at h
  obtain ⟨-, hsome, current, anchor, hcurrent, _, -, state, hstate, -⟩ := h
  cases existing with
  | none => simp at hsome
  | some x =>
    refine ⟨x, rfl, ?_⟩
    by_contra hlegacy
    simp only [hlegacy, if_false, bind_eq_ok, pure_eq_ok,
      Prod.mk.injEq] at hcurrent
    obtain ⟨-, -, rfl, -⟩ := hcurrent
    simp at hstate

/-- A multisignature Provider envelope read as a Provider Record. -/
theorem Candidate.Reads.provider_reading {p : Candidate} {e : Bytes} (h : p.Reads rt e)
    {reading : ProviderReading} :
    readAsProvider rt e = .ok reading ↔
      decodeProviderPayloadDict p.payload = .ok reading.payload ∧
        ownerPublicKeyField .provider p.recordFields = .ok reading.ownerPublicKey ∧
        p.seq = reading.seq := by
  rw [readAsProvider_eq_ok (signedUpdateOf_candidate h)
    (decodeMultisignatureSignedUpdate_eq_ok.1 h.update)]
  simp only [Candidate.update, ownerPublicKeyField, bind_eq_ok, getItem_eq_ok]

theorem IsStandalone.lookupKey {recordKey e : Bytes} {p : Candidate}
    {history : Option (List Bytes)} (h : IsStandalone rt recordKey e p history) :
    p.derivedRecordKey = recordKey := by
  cases h with
  | genesis h => exact h.lookupKey
  | upgrade _ _ lookupKey => exact lookupKey
  | ownSigners _ _ lookupKey => exact lookupKey

/-- A step from a Provider state that neither replaces signers nor updates is none. -/
theorem IsStep.provider_common {recordKey e : Bytes} {p : Candidate} {s : MultisignatureState}
    {history : Option (List Bytes)} (h : IsStep rt recordKey e p (some s) none history)
    (hkind : p.authorization.recordKind = .provider) :
    IsCommonTransition rt recordKey p s ∧
      ThresholdProofs rt p.signedUpdateBytes p.envelope.proofs s.signerSet s.threshold := by
  cases h with
  | ordinaryUpdate h => exact ⟨h.toIsCommonTransition, h.proofs⟩
  | replaceSigners h => exact ⟨h.toIsCommonTransition, h.proofs⟩
  | rotate h =>
    obtain ⟨_, -, hrotation⟩ := h.rotation
    cases hrotation.recordKind.symm.trans hkind

/-- **A multisignature withdrawal is authorized** by the signers of the record it withdraws. -/
theorem multisignatureWithdrawal_authorized {recordKey e : Bytes} {existing : Option Bytes}
    {s : MultisignatureState} {p : Candidate} {tombstone : ProviderWithdrawnPayloadV2}
    (h : validateMultisignatureTransition rt recordKey e existing none = .ok s)
    (hp : p.Reads rt e)
    (hpayload : decodeProviderPayloadDict p.payload = .ok (.withdrawn tombstone)) :
    ∃ x candidate current, existing = some x ∧
      AuthorizedWithdrawal rt recordKey e x candidate current := by
  obtain ⟨x, rfl, hx⟩ := validateMultisignatureTransition_withdrawal h hp hpayload
  obtain ⟨p', history, _, _, hp', hfrom, hstep, -, -⟩ := validateMultisignatureTransition_spec h
  obtain rfl := hp.unique hp'
  simp only [StepsFrom, hx, if_true] at hfrom
  obtain ⟨c, rfl, rfl, henvelope, -, -⟩ := hfrom
  obtain ⟨q, history', hq, hstandalone, hc⟩ := validateMultisignatureEnvelope_eq_ok.1 henvelope
  have hkind := hp.provider_of_payload hpayload
  obtain ⟨hcommon, hproofs⟩ := hstep.provider_common hkind
  have hckind : c.recordKind = .provider := hcommon.recordKind.symm.trans hkind
  have hqkind : q.authorization.recordKind = .provider := (hq.state hc).recordKind.symm.trans hckind
  -- the payload of the current state is that of the existing envelope
  obtain ⟨qpayload, hqpayload⟩ : ∃ payload, decodeProviderPayloadDict q.payload = .ok payload := by
    have := hq.binding
    rw [hqkind] at this
    exact this.2.2
  obtain ⟨current, candidate, hpayloads, hnot⟩ := hcommon.payloads hckind
  obtain ⟨rfl, rfl⟩ := (providerPayloads_eq_ok (hq.state hc).update hqpayload hpayload).1 hpayloads
  obtain ⟨active, rfl⟩ : ∃ active, qpayload = .active active := by
    cases qpayload with
    | active active => exact ⟨active, rfl⟩
    | withdrawn _ => exact absurd ⟨rfl, rfl⟩ hnot
  have hkey : fromHex active.objectHash = .ok recordKey := by
    have := hq.recordKey
    simp only [hqkind] at this
    obtain ⟨owner, howner⟩ := this
    rw [← hstandalone.lookupKey]
    exact extractProviderAndKeys_key howner hqpayload
  have hqowner : ownerPublicKeyField .provider q.recordFields = .ok c.ownerPublicKey :=
    hckind ▸ (hq.state hc).owner
  have hseq : c.seq = q.seq := (hq.state hc).seq
  refine ⟨x, ⟨c.ownerPublicKey, .withdrawn tombstone, p.seq⟩,
    ⟨c.ownerPublicKey, .active active, q.seq⟩, rfl, ?_⟩
  exact
    { reads := hp.provider_reading.2 ⟨hpayload, hckind ▸ hcommon.owner, rfl⟩
      existingReads := hq.provider_reading.2 ⟨hqpayload, hqowner, rfl⟩
      active := ⟨active, rfl, hkey⟩
      owner := rfl
      seq := hseq ▸ hcommon.seq
      legacy := fun h => by simp [isMultisignatureEnvelope_of_decode hp.envelope] at h
      multisignature := fun _ => ⟨p, q.signedUpdateBytes, decodeMultisignatureCandidate_eq_ok.2 hp,
        signedUpdateOf_candidate hq, hcommon.predecessor.trans (candidateState_stateHash hc).1,
        quorumOfPredecessor hp hq hc hproofs⟩ }

/-- A withdrawal that either path reports of a multisignature envelope is an accepted transition. -/
theorem multisignature_withdrawn {recordKey e : Bytes} {existing : Option Bytes}
    {r : ProviderWithdrawnResult}
    (h : validateMultisignatureProviderOverwrite rt recordKey e existing = .ok (.withdrawn r) ∨
      validateMultisignatureProviderGet rt recordKey e existing = .ok (.withdrawn r)) :
    ∃ (s : MultisignatureState) (p : Candidate) (tombstone : ProviderWithdrawnPayloadV2),
      validateMultisignatureTransition rt recordKey e existing none = .ok s ∧ p.Reads rt e ∧
      decodeProviderPayloadDict p.payload = .ok (.withdrawn tombstone) := by
  rcases h with h | h
  · simp only [validateMultisignatureProviderOverwrite, bind_eq_ok] at h
    obtain ⟨s, htransition, u, hu, payload, hpayload, h⟩ := h
    obtain ⟨p, history, current, anchor, hp, -, -, -, hs⟩ :=
      validateMultisignatureTransition_spec htransition
    obtain rfl : p.update = u := Except.ok.inj ((hp.state hs).update.symm.trans hu)
    cases payload with
    | active _ => simp at h
    | withdrawn tombstone => exact ⟨s, p, tombstone, htransition, hp, hpayload⟩
  · simp only [validateMultisignatureProviderGet, bind_eq_ok] at h
    obtain ⟨env, henv, u, hu, payload, hpayload, h⟩ := h
    cases payload with
    | active _ => simp at h
    | withdrawn tombstone =>
      simp only [bind_eq_ok, orRaise_eq_ok] at h
      obtain ⟨x, rfl, s, htransition, -⟩ := h
      obtain ⟨p, history, current, anchor, hp, -⟩ :=
        validateMultisignatureTransition_spec htransition
      obtain rfl : p.envelope = env := Except.ok.inj (hp.envelope.symm.trans henv)
      rw [hp.signedUpdateBytes] at hu
      obtain rfl : p.update = u := Except.ok.inj (hp.update.symm.trans hu)
      exact ⟨s, p, tombstone, htransition, hp, hpayload⟩

/-! ## Legacy withdrawals -/

/-- A withdrawal that the write path reports of a legacy envelope is reported by the read path. -/
theorem validateLegacyProviderOverwrite_withdrawn {recordKey e : Bytes} {existing : Option Bytes}
    {r : ProviderWithdrawnResult}
    (h : validateLegacyProviderOverwrite rt recordKey e existing = .ok (.withdrawn r)) :
    ∃ r', validateLegacyProviderGet rt recordKey e existing = .ok (.withdrawn r') := by
  obtain ⟨read, hread, -⟩ := validateLegacyProviderOverwrite_readback h
  obtain ⟨legacy, ⟨owner, payload, seq⟩, hreads, hreading, -, rfl⟩ :=
    validateLegacyProviderGet_eq_ok.1 hread
  cases payload with
  | withdrawn tombstone => exact ⟨_, hread⟩
  | active active =>
    -- the write path reads the same payload
    obtain ⟨hpayload, -⟩ := hreads.provider_reading.1 hreading
    obtain ⟨signature, hsigned, -⟩ := hreads.signed
    simp [validateLegacyProviderOverwrite, hsigned, hreads.update, hpayload] at h

theorem validateLegacyProviderGet_withdrawn {recordKey e : Bytes} {existing : Option Bytes} :
    (∃ r, validateLegacyProviderGet rt recordKey e existing = .ok (.withdrawn r)) ↔
      ∃ (legacy : LegacyState) (owner : Bytes) (tombstone : ProviderWithdrawnPayloadV2) (seq : ℕ)
        (x : Bytes), legacy.Reads rt recordKey e ∧
        readAsProvider rt e = .ok ⟨owner, .withdrawn tombstone, seq⟩ ∧ existing = some x ∧
        IsLegacyPredecessor rt recordKey owner tombstone seq x := by
  simp only [validateLegacyProviderGet_eq_ok]
  constructor
  · rintro ⟨r, legacy, ⟨owner, payload, seq⟩, hreads, hreading, hpredecessor, hresult⟩
    cases payload with
    | active _ => cases hresult
    | withdrawn tombstone =>
      obtain ⟨x, hx, hpredecessor⟩ := hpredecessor tombstone rfl
      exact ⟨legacy, owner, tombstone, seq, x, hreads, hreading, hx, hpredecessor⟩
  · rintro ⟨legacy, owner, tombstone, seq, x, hreads, hreading, rfl, hpredecessor⟩
    exact ⟨_, legacy, _, hreads, hreading, by simpa using hpredecessor, rfl⟩

/-- A legacy withdrawal over its predecessor is authorized exactly when its owner signed it. -/
theorem IsLegacyPredecessor.authorized_iff {recordKey owner e x : Bytes}
    {tombstone : ProviderWithdrawnPayloadV2} {seq : ℕ}
    (h : IsLegacyPredecessor rt recordKey owner tombstone seq x)
    (hlegacy : isMultisignatureEnvelope rt e = false)
    (hreading : readAsProvider rt e = .ok ⟨owner, .withdrawn tombstone, seq⟩) :
    (∃ candidate current, AuthorizedWithdrawal rt recordKey e x candidate current) ↔
      SignedBy rt owner e := by
  constructor
  · rintro ⟨candidate, current, h⟩
    obtain rfl := Except.ok.inj (hreading.symm.trans h.reads)
    exact h.legacy hlegacy
  · intro hsigned
    obtain ⟨active, n, hx, hhash, hnewer⟩ := h.active
    exact ⟨_, _,
      { reads := hreading
        existingReads := hx
        active := ⟨active, rfl, hhash ▸ h.recordKey⟩
        owner := rfl
        seq := hnewer
        legacy := fun _ => hsigned
        multisignature := fun h => absurd h (by simp [hlegacy]) }⟩

/-- **Every reported withdrawal is authorized by the active record it withdraws, except for misread
tombstones.** -/
theorem withdrawal_authorized_iff (rt : Runtime) (recordKey e : Bytes) (existing : Option Bytes) :
    WithdrawalsAuthorized rt recordKey e existing ↔
      ¬ MisreadWithdrawal rt recordKey e existing := by
  cases hmultisig : isMultisignatureEnvelope rt e with
  | true =>
    refine iff_of_true ?_ ?_
    · intro r hr
      simp only [validateProviderOverwrite, validateProviderGet, hmultisig, if_true] at hr
      obtain ⟨s, p, tombstone, htransition, hp, hpayload⟩ := multisignature_withdrawn hr
      exact multisignatureWithdrawal_authorized htransition hp hpayload
    · rintro ⟨⟨legacy, hlegacy, -⟩, -⟩
      obtain ⟨_, hsigned, -⟩ := (decodeLegacyState_eq_ok.1 hlegacy).signed
      rw [isMultisignatureEnvelope_of_legacy hsigned] at hmultisig
      cases hmultisig
  | false =>
    have hauthorized : WithdrawalsAuthorized rt recordKey e existing ↔
        ((∃ r, validateLegacyProviderGet rt recordKey e existing = .ok (.withdrawn r)) →
          ∃ x candidate current, existing = some x ∧
            AuthorizedWithdrawal rt recordKey e x candidate current) := by
      simp only [WithdrawalsAuthorized, validateProviderOverwrite, validateProviderGet, hmultisig,
        Bool.false_eq_true, if_false]
      constructor
      · rintro h ⟨r, hr⟩
        exact h r (.inr hr)
      · rintro h r (hr | hr)
        · exact h (validateLegacyProviderOverwrite_withdrawn hr)
        · exact h ⟨r, hr⟩
    rw [hauthorized, validateLegacyProviderGet_withdrawn]
    constructor
    · rintro h ⟨⟨legacy, hlegacy, -⟩, owner, tombstone, seq, x, hreading, rfl, hpredecessor,
        hunsigned⟩
      obtain ⟨_, candidate, current, hx, hauthorized⟩ := h
        ⟨legacy, owner, tombstone, seq, x, decodeLegacyState_eq_ok.1 hlegacy, hreading, rfl,
          hpredecessor⟩
      obtain rfl := Option.some.inj hx
      exact hunsigned ((hpredecessor.authorized_iff hmultisig hreading).1
        ⟨candidate, current, hauthorized⟩)
    · rintro hnot ⟨legacy, owner, tombstone, seq, x, hreads, hreading, rfl, hpredecessor⟩
      have hsigned : SignedBy rt owner e := by
        cases hkind : legacy.recordKind with
        | provider =>
          obtain ⟨-, reading, hreading', hsigned⟩ := hreads.provider_binds hkind hreading
          obtain rfl := Except.ok.inj (hreading.symm.trans hreading')
          exact hsigned
        | identity =>
          by_contra hunsigned
          exact hnot ⟨⟨legacy, decodeLegacyState_eq_ok.2 hreads, hkind⟩, owner, tombstone, seq, x,
            hreading, rfl, hpredecessor, hunsigned⟩
      obtain ⟨candidate, current, h⟩ := (hpredecessor.authorized_iff hmultisig hreading).2 hsigned
      exact ⟨x, candidate, current, rfl, h⟩

/-- What is read is a withdrawal. -/
def ProviderRead.isWithdrawn : ProviderRead → Bool
  | .withdrawn _ => true
  | .payload _ | .record _ => false

/-- **A withdrawal that the owner did not sign.** The active record of `a` under the hash of the key
of `a`, withdrawn by `e`, whose key is in field 2. -/
theorem ambiguousWithdrawal_unauthorized :
    ¬ WithdrawalsAuthorized Sample.runtime Sample.namedKey Sample.ambiguousWithdrawal
      (some Sample.namedProvider) := by
  intro h
  obtain ⟨hok, hlegacy, hunsigned⟩ :
      ProviderRead.isWithdrawn <$> validateProviderGet Sample.runtime Sample.namedKey
        Sample.ambiguousWithdrawal (some Sample.namedProvider) = .ok true ∧
      isMultisignatureEnvelope Sample.runtime Sample.ambiguousWithdrawal = false ∧
      ownerSigned Sample.runtime Sample.ambiguousWithdrawal = .ok false := by
    decide +kernel
  obtain ⟨read, hread, hwithdrawn⟩ := map_eq_ok.1 hok
  cases read with
  | payload _ => cases hwithdrawn
  | record _ => cases hwithdrawn
  | withdrawn r =>
    obtain ⟨_, _, _, -, hauthorized⟩ := h r (.inr hread)
    have hsigned := (hauthorized.legacy hlegacy).ownerSigned hauthorized.reads
    cases hsigned.symm.trans hunsigned

end DecentRegistry
