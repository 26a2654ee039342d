import DecentRegistry.Authority.Chain

/-!
# Envelopes on their own, and envelopes over an existing one

`validate_multisignature_envelope` judges an envelope without its predecessor. Of an Identity it
accepts a genesis only; of a Provider it re-checks the proofs against the signer set that the
envelope itself carries (`validateMultisignatureEnvelope_eq_ok`).

`_validate_multisignature_transition` recovers the current state from the existing envelope and then
takes a step from it (`validateMultisignatureTransition_spec`).
-/

namespace DecentRegistry

open Fallible PyValue

variable {rt : Runtime}

/-! ## Envelopes on their own -/

/-- What makes an envelope acceptable without its predecessor, and the state it then stands for. -/
inductive IsStandalone (rt : Runtime) (recordKey e : Bytes) (p : Candidate) :
    Option (List Bytes) → Prop
  | genesis (h : IsGenesis rt recordKey p) : IsStandalone rt recordKey e p (some [e])
  | upgrade (operation : p.authorization.operation = .upgrade)
      (recordKind : p.authorization.recordKind = .provider)
      (lookupKey : p.derivedRecordKey = recordKey) (epoch : p.authorization.epoch = 1)
      (threshold : p.authorization.threshold = 2) (size : p.authorization.signerSet.length = 3)
      {owner : Bytes}
      (ownerField : ownerPublicKeyField p.authorization.recordKind p.recordFields = .ok owner)
      {signerId : Text} {signature : Bytes}
      (proof : p.envelope.proofs = [⟨some signerId, signature⟩])
      (signer : signerIdForPublicKey p.authorization owner = .ok signerId)
      (valid : verifyEd25519Signature rt owner p.signedUpdateBytes signature = .ok true) :
      IsStandalone rt recordKey e p none
  | ownSigners
      (operation : p.authorization.operation = .ordinaryUpdate ∨
        p.authorization.operation = .replaceSigners)
      (recordKind : p.authorization.recordKind = .provider)
      (lookupKey : p.derivedRecordKey = recordKey)
      (proofs : ThresholdProofs rt p.signedUpdateBytes p.envelope.proofs p.authorization.signerSet
        p.authorization.threshold) : IsStandalone rt recordKey e p none

theorem RecordKind.eq_provider_of_ne {k : RecordKind} (h : k ≠ .identity) : k = .provider := by
  cases k with
  | identity => exact absurd rfl h
  | provider => rfl

/-- **What `validate_multisignature_envelope` accepts.** -/
theorem validateMultisignatureEnvelope_eq_ok {recordKey e : Bytes} {s : MultisignatureState} :
    validateMultisignatureEnvelope rt recordKey e = .ok s ↔
      ∃ (p : Candidate) (history : Option (List Bytes)), p.Reads rt e ∧
        IsStandalone rt recordKey e p history ∧ candidateState rt recordKey p history = .ok s := by
  simp only [validateMultisignatureEnvelope, bind_eq_ok, decodeMultisignatureCandidate_eq_ok,
    raiseIf_eq_ok, not_not, exists_const]
  constructor
  · rintro ⟨p, hp, hkey, h⟩
    cases hop : p.authorization.operation <;>
      simp only [hop, bind_eq_ok, raiseIf_eq_ok, not_and, ne_eq, reduceCtorEq, not_false_eq_true,
        not_true_eq_false, imp_false, exists_const, throw_eq_ok_iff, and_false,
        requireComplete2of3_eq_ok, onlyProof_eq_ok, requireValidProof_eq_ok, not_not,
        validateMultisignatureGenesis_eq_ok, validateThresholdProofs_eq_ok] at h
    · obtain ⟨q, hq, hgenesis, hs⟩ := h
      exact ⟨q, _, hq, .genesis hgenesis, hs⟩
    · obtain ⟨hkind, hproofs, hs⟩ := h
      exact ⟨p, none, hp, .ownSigners (.inl hop) (RecordKind.eq_provider_of_ne hkind) hkey hproofs,
        hs⟩
    · obtain ⟨hkind, hproofs, hs⟩ := h
      exact ⟨p, none, hp, .ownSigners (.inr hop) (RecordKind.eq_provider_of_ne hkind) hkey hproofs,
        hs⟩
    · obtain ⟨hkind, hepoch, ⟨hthreshold, hsize⟩, ⟨_, signature⟩, hproof, owner, howner, signerId,
        hsigner, rfl, hvalid, hs⟩ := h
      exact ⟨p, none, hp, .upgrade hop (RecordKind.eq_provider_of_ne hkind) hkey hepoch hthreshold
        hsize howner hproof hsigner hvalid, hs⟩
  · rintro ⟨p, history, hp, h, hs⟩
    cases h with
    | genesis h =>
      refine ⟨p, hp, h.lookupKey, ?_⟩
      simp only [h.operation, validateMultisignatureGenesis_eq_ok]
      exact ⟨p, hp, h, hs⟩
    | upgrade operation recordKind lookupKey epoch threshold size ownerField proof signer valid =>
      refine ⟨p, hp, lookupKey, ?_⟩
      simp only [operation, bind_eq_ok, raiseIf_eq_ok, requireComplete2of3_eq_ok, onlyProof_eq_ok,
        requireValidProof_eq_ok, not_not]
      exact ⟨(), by simp [recordKind], (), epoch, (), ⟨threshold, size⟩, _, proof, _, ownerField, _,
        signer, (), rfl, (), valid, hs⟩
    | ownSigners operation recordKind lookupKey proofs =>
      refine ⟨p, hp, lookupKey, ?_⟩
      rcases operation with operation | operation <;>
        simp only [operation, bind_eq_ok, raiseIf_eq_ok, validateThresholdProofs_eq_ok]
      · exact ⟨(), by simp [recordKind], (), proofs, hs⟩
      · exact ⟨(), by simp [recordKind], (), proofs, hs⟩

/-- An Identity that is accepted on its own, with its history, is a genesis, and a history by
itself. -/
theorem validateMultisignatureHistory_singleton {recordKey e : Bytes} {s : MultisignatureState}
    (h : validateMultisignatureEnvelope rt recordKey e = .ok s) (hkind : s.recordKind = .identity)
    (hhistory : s.history ≠ none) : validateMultisignatureHistory rt recordKey [e] = .ok s := by
  obtain ⟨p, history, hp, hstandalone, hs⟩ := validateMultisignatureEnvelope_eq_ok.1 h
  obtain ⟨owner, -, rfl⟩ := candidateState_eq_ok.1 hs
  replace hkind : p.authorization.recordKind = .identity := hkind
  simp only [Candidate.state, hkind, if_true] at hhistory
  cases hstandalone with
  | genesis hgenesis =>
    refine validateMultisignatureHistory_eq_ok.2 ⟨.anchor (.genesis hp hgenesis hkind hs), ?_⟩
    simp [Candidate.state, hkind]
  | upgrade => exact absurd rfl hhistory
  | ownSigners => exact absurd rfl hhistory

/-! ## Envelopes over an existing one -/

/-- How the current state of a transition is recovered from the existing envelope: by replaying
the chain that ends at it, or from the envelope on its own. -/
def IsCurrent (rt : Runtime) (recordKey existing : Bytes) (p : Candidate)
    (chain : Option (List Bytes)) (current : MultisignatureState) : Prop :=
  match chain with
  | some chain => chain.getLast? = some existing ∧
      validateMultisignatureHistory rt recordKey chain = .ok current
  | none => validateMultisignatureEnvelope rt recordKey existing = .ok current ∧
      p.authorization.operation ≠ .ownerKeyRotation ∧
      ¬ (p.authorization.recordKind = .identity ∧ current.history = none)

/-- What a transition steps from. -/
def StepsFrom (rt : Runtime) (recordKey : Bytes) (p : Candidate) (existing : Option Bytes)
    (chain : Option (List Bytes)) (current : Option MultisignatureState) (anchor : Option Bytes) :
    Prop :=
  match existing with
  | none => current = none ∧ anchor = none
  | some existing =>
    if isMultisignatureEnvelope rt existing then
      ∃ s, current = some s ∧ anchor = none ∧ IsCurrent rt recordKey existing p chain s
    else current = none ∧ anchor = some existing

theorem currentMultisignatureState_eq_ok {recordKey existing : Bytes} {p : Candidate}
    {chain : Option (List Bytes)} {current : MultisignatureState} :
    currentMultisignatureState rt recordKey existing p.authorization chain = .ok current ↔
      IsCurrent rt recordKey existing p chain current := by
  cases chain with
  | none =>
    simp only [currentMultisignatureState, bind_eq_ok, raiseIf_eq_ok, exists_const, pure_eq_ok,
      IsCurrent]
    constructor
    · rintro ⟨hop, _, henvelope, hhistory, rfl⟩
      exact ⟨henvelope, hop, hhistory⟩
    · rintro ⟨henvelope, hop, hhistory⟩
      exact ⟨hop, current, henvelope, hhistory, rfl⟩
  | some chain =>
    simp only [currentMultisignatureState, requireHistoryEndingAt, bind_eq_ok, raiseIf_eq_ok,
      exists_const, not_not, IsCurrent]

/-- The candidate's payload is decoded for Provider Records only. -/
theorem withdraws_eq_ok {u : MultisignatureUpdate} {b : Bool} :
    withdraws u = .ok b ↔
      match u.authorization.recordKind with
      | .identity => b = false
      | .provider => ∃ payload, decodeProviderPayloadDict u.payload = .ok payload ∧
          payload.isWithdrawn = b := by
  cases hkind : u.authorization.recordKind with
  | identity => simp [withdraws, hkind]
  | provider => simp [withdraws, hkind]

/-- **An accepted transition is a step** from what the existing envelope stands for. -/
theorem validateMultisignatureTransition_spec {recordKey e : Bytes} {existing : Option Bytes}
    {chain : Option (List Bytes)} {s : MultisignatureState}
    (h : validateMultisignatureTransition rt recordKey e existing chain = .ok s) :
    ∃ (p : Candidate) (history : Option (List Bytes)) (current : Option MultisignatureState)
      (anchor : Option Bytes), p.Reads rt e ∧
        StepsFrom rt recordKey p existing chain current anchor ∧
        IsStep rt recordKey e p current anchor history ∧
        (p.authorization.operation = .ownerKeyRotation →
          ∀ state ∈ current, HistoryVerified rt recordKey state) ∧
        candidateState rt recordKey p history = .ok s := by
  simp only [validateMultisignatureTransition, bind_eq_ok, raiseIf_eq_ok] at h
  obtain ⟨env, henv, u, hu, withdrawal, -, -, -, ⟨current, anchor⟩, hcurrent, s', hupdate, h⟩ := h
  obtain ⟨p, history, hp, hstep, hverified, hs⟩ := validateMultisignatureUpdate_eq_ok.1 hupdate
  have hss : s' = s := by
    split at h
    · simp only [bind_eq_ok, pure_eq_ok] at h
      obtain ⟨-, -, -, -, -, -, -, -, rfl⟩ := h
      rfl
    · simpa using h
  subst hss
  refine ⟨p, history, current, anchor, hp, ?_, hstep, hverified, hs⟩
  obtain rfl : p.envelope = env := Except.ok.inj (hp.envelope.symm.trans henv)
  rw [hp.signedUpdateBytes] at hu
  obtain rfl : p.update = u := Except.ok.inj (hp.update.symm.trans hu)
  cases existing with
  | none =>
    simp only [pure_eq_ok, Prod.mk.injEq] at hcurrent
    exact ⟨hcurrent.1.symm, hcurrent.2.symm⟩
  | some x =>
    cases hmultisig : isMultisignatureEnvelope rt x with
    | true =>
      simp only [hmultisig, if_true, bind_eq_ok, pure_eq_ok, Prod.mk.injEq] at hcurrent
      obtain ⟨c, hc, rfl, rfl⟩ := hcurrent
      simp only [StepsFrom, hmultisig, if_true]
      exact ⟨c, rfl, trivial, currentMultisignatureState_eq_ok.1 hc⟩
    | false =>
      simp only [StepsFrom, hmultisig, Bool.false_eq_true, if_false] at hcurrent ⊢
      split at hcurrent <;> simp only [bind_eq_ok, pure_eq_ok, Prod.mk.injEq] at hcurrent
      · obtain ⟨-, -, hcurrent⟩ := hcurrent
        exact ⟨hcurrent.1.symm, hcurrent.2.symm⟩
      · exact ⟨hcurrent.1.symm, hcurrent.2.symm⟩

end DecentRegistry
