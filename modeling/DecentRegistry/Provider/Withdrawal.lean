import DecentRegistry.Authority.Runs
import DecentRegistry.Sample.States

/-!
# Withdrawn Provider states

A multisignature Provider state whose payload is a tombstone accepts no ordinary update and no
withdrawal: a second withdrawal is refused by the common transition, and the ordinary update refuses
the active payload that would reactivate the record (`withdrawn_is_terminal`).
`_validate_common_transition` taken alone would let the reactivation pass (`IsReactivation.common`),
as it does the reactivation by a replacement of signers, which is accepted.
-/

namespace DecentRegistry

open Fallible PyValue

variable {rt : Runtime}

/-- A Provider state whose payload is a v2 withdrawal. -/
def MultisignatureState.Withdrawn (rt : Runtime) (s : MultisignatureState) : Prop :=
  s.recordKind = .provider ∧ ∃ u tombstone,
    decodeMultisignatureSignedUpdate rt s.signedUpdateBytes = .ok u ∧
      decodeProviderPayloadDict u.payload = .ok (.withdrawn tombstone)

/-- An ordinary update that reactivates `s`: the same key, owner, epoch, threshold and signer set,
a newer sequence number, an active payload, and a quorum of valid proofs. -/
structure IsReactivation (rt : Runtime) (p : Candidate) (s : MultisignatureState) : Prop where
  operation : p.authorization.operation = .ordinaryUpdate
  lookupKey : p.derivedRecordKey = s.recordKey
  recordKind : p.authorization.recordKind = .provider
  owner : ownerPublicKeyField .provider p.recordFields = .ok s.ownerPublicKey
  epoch : p.authorization.epoch = s.epoch
  threshold : p.authorization.threshold = s.threshold
  signerSet : p.authorization.signerSet = s.signerSet
  predecessor : p.authorization.predecessorStateHash = s.stateHash
  seq : s.seq < p.seq
  payload : ∃ active, decodeProviderPayloadDict p.payload = .ok (.active active)
  proofs :
    validateThresholdProofs rt p.signedUpdateBytes p.envelope s.signerSet s.threshold = .ok ()

/-- The payload a computation returns, if it is active. -/
def activePayload? (payload : Py ProviderPayload) : Option ProviderPayloadV3 :=
  match payload with
  | .ok (.active active) => some active
  | _ => none

theorem activePayload?_eq_some {payload : Py ProviderPayload} {active : ProviderPayloadV3} :
    activePayload? payload = some active ↔ payload = .ok (.active active) := by
  rcases payload with _ | ⟨_ | _⟩ <;> simp [activePayload?]

instance (p : Candidate) (s : MultisignatureState) : Decidable (IsReactivation rt p s) :=
  decidable_of_iff
    (p.authorization.operation = .ordinaryUpdate ∧ p.derivedRecordKey = s.recordKey ∧
      p.authorization.recordKind = .provider ∧
      ownerPublicKeyField .provider p.recordFields = .ok s.ownerPublicKey ∧
      p.authorization.epoch = s.epoch ∧ p.authorization.threshold = s.threshold ∧
      p.authorization.signerSet = s.signerSet ∧
      p.authorization.predecessorStateHash = s.stateHash ∧ s.seq < p.seq ∧
      (activePayload? (decodeProviderPayloadDict p.payload)).isSome = true ∧
      validateThresholdProofs rt p.signedUpdateBytes p.envelope s.signerSet s.threshold = .ok ())
    ⟨fun ⟨h₁, h₂, h₃, h₄, h₅, h₆, h₇, h₈, h₉, h₁₀, h₁₁⟩ =>
        ⟨h₁, h₂, h₃, h₄, h₅, h₆, h₇, h₈, h₉,
          (Option.isSome_iff_exists.1 h₁₀).imp fun _ => activePayload?_eq_some.1, h₁₁⟩,
      fun h => ⟨h.operation, h.lookupKey, h.recordKind, h.owner, h.epoch, h.threshold, h.signerSet,
        h.predecessor, h.seq,
        Option.isSome_iff_exists.2 (h.payload.imp fun _ => activePayload?_eq_some.2), h.proofs⟩⟩

theorem providerPayloads_eq_ok {p : Candidate} {s : MultisignatureState} {u : MultisignatureUpdate}
    {current candidate current' candidate' : ProviderPayload}
    (hu : decodeMultisignatureSignedUpdate rt s.signedUpdateBytes = .ok u)
    (hcurrent : decodeProviderPayloadDict u.payload = .ok current)
    (hcandidate : decodeProviderPayloadDict p.payload = .ok candidate) :
    providerPayloads rt p s = .ok (current', candidate') ↔
      current = current' ∧ candidate = candidate' := by
  simp [providerPayloads, hu, hcurrent, hcandidate]

/-- The common transition admits a reactivation. -/
theorem IsReactivation.common {p : Candidate} {s : MultisignatureState}
    (h : IsReactivation rt p s) (hs : s.Withdrawn rt) :
    IsCommonTransition rt s.recordKey p s := by
  obtain ⟨hkind, u, tombstone, hu, htombstone⟩ := hs
  obtain ⟨active, hactive⟩ := h.payload
  exact
    { lookupKey := h.lookupKey
      recordKey := rfl
      recordKind := h.recordKind.trans hkind.symm
      owner := hkind ▸ h.owner
      seq := h.seq
      predecessor := h.predecessor
      payloads := fun _ => ⟨_, _, (providerPayloads_eq_ok hu htombstone hactive).2 ⟨rfl, rfl⟩,
        by simp [ProviderPayload.isWithdrawn]⟩ }

/-- The ordinary update refuses a reactivation. -/
theorem IsReactivation.refused {p : Candidate} {s : MultisignatureState} {e : Bytes}
    (h : IsReactivation rt p s) (hs : s.Withdrawn rt)
    (hp : decodeMultisignatureCandidate rt e = .ok p) :
    validateMultisignatureUpdate rt s.recordKey e (some s) none = .error alreadyWithdrawn := by
  have hcommon := validateCommonTransition_eq_ok (u := ()) |>.2 (h.common hs)
  obtain ⟨hkind, u, tombstone, hu, htombstone⟩ := hs
  obtain ⟨active, hactive⟩ := h.payload
  have hpayloads := (providerPayloads_eq_ok (p := p) hu htombstone hactive).2 ⟨rfl, rfl⟩
  simp only [validateMultisignatureUpdate, validateMultisignatureUpdateWith, hp, ok_bind,
    h.operation, validateMultisignatureOrdinaryUpdate, hcommon, hkind, if_true, hpayloads]
  rw [raiseIf_neg (by simp), ok_bind,
    raiseIf_pos
      (show (ProviderPayload.withdrawn tombstone).isWithdrawn = true from rfl), error_bind]

/-- A withdrawal is not a step from a withdrawn state. -/
theorem IsStep.not_withdrawal {recordKey e : Bytes} {p : Candidate} {s : MultisignatureState}
    {anchor : Option Bytes} {history : Option (List Bytes)} {tombstone : ProviderWithdrawnPayloadV2}
    (hstep : IsStep rt recordKey e p (some s) anchor history) (hs : s.Withdrawn rt)
    (htombstone : decodeProviderPayloadDict p.payload = .ok (.withdrawn tombstone)) : False := by
  obtain ⟨hkind, u, tombstone', hu, htombstone'⟩ := hs
  have hnot : ¬ IsCommonTransition rt recordKey p s := by
    intro h
    obtain ⟨current, candidate, hpayloads, hwithdrawn⟩ := h.payloads hkind
    obtain ⟨rfl, rfl⟩ := (providerPayloads_eq_ok hu htombstone' htombstone).1 hpayloads
    exact hwithdrawn ⟨rfl, rfl⟩
  cases hstep with
  | ordinaryUpdate h => exact hnot h.toIsCommonTransition
  | replaceSigners h => exact hnot h.toIsCommonTransition
  | rotate h => cases h.currentKind.symm.trans hkind

/-- **A tombstone is terminal for ordinary updates.** From a withdrawn state no reactivation is
accepted, however authorized, and no withdrawal is either. -/
theorem withdrawn_is_terminal (rt : Runtime) (s : MultisignatureState) (hs : s.Withdrawn rt) :
    (∀ e p, decodeMultisignatureCandidate rt e = .ok p → IsReactivation rt p s →
        validateMultisignatureUpdate rt s.recordKey e (some s) none = .error alreadyWithdrawn) ∧
      ∀ recordKey e p tombstone t, decodeMultisignatureCandidate rt e = .ok p →
        decodeProviderPayloadDict p.payload = .ok (.withdrawn tombstone) →
        validateMultisignatureUpdate rt recordKey e (some s) none ≠ .ok t := by
  refine ⟨fun e p hp h => h.refused hs hp, fun recordKey e p tombstone t hp htombstone h => ?_⟩
  obtain ⟨q, history, hq, hstep, -, -⟩ := validateMultisignatureUpdate_eq_ok.1 h
  obtain rfl := hq.unique (decodeMultisignatureCandidate_eq_ok.1 hp)
  exact hstep.not_withdrawal hs htombstone

theorem isOk_reactivation :
    (decodeMultisignatureCandidate Sample.runtime Sample.providerReactivation).isOk = true := by
  decide +kernel

theorem withdrawnState_withdrawn : Sample.withdrawnState.Withdrawn Sample.runtime := by
  rw [Sample.withdrawnState_fields]
  have h : (decodeMultisignatureSignedUpdate Sample.runtime
      (Sample.providerState Sample.withdrawnPayload 2 .ordinaryUpdate
        Sample.providerGenesisSignatures.digestBytes
        Sample.providerWithdrawalSignatures).signedUpdateBytes >>=
        fun u => decodeProviderPayloadDict u.payload) =
      .ok (.withdrawn ⟨Sample.text "sha256", toHex Sample.providerKey, none⟩) := by
    decide +kernel
  obtain ⟨u, hu, htombstone⟩ := bind_eq_ok.1 h
  exact ⟨rfl, u, _, hu, htombstone⟩

/-- The sample reactivation meets every condition. -/
theorem sampleReactivation :
    IsReactivation Sample.runtime (valueOf _ isOk_reactivation) Sample.withdrawnState := by
  rw [Sample.withdrawnState_fields]
  decide +kernel

/-- The tombstone of the sample record is terminal. -/
theorem withdrawnState_is_terminal :
    validateMultisignatureUpdate Sample.runtime Sample.withdrawnState.recordKey
      Sample.providerReactivation (some Sample.withdrawnState) none = .error alreadyWithdrawn :=
  (withdrawn_is_terminal _ _ withdrawnState_withdrawn).1 _ _ (eq_ok_valueOf isOk_reactivation)
    sampleReactivation

/-- **A reactivation that is refused.** An ordinary update of a withdrawn state with an active
payload, a newer sequence number and the signatures of two of the signers. -/
theorem reactivation_refused :
    ∃ p, Reachable Sample.runtime Sample.withdrawnState ∧
      Sample.withdrawnState.Withdrawn Sample.runtime ∧
      decodeMultisignatureCandidate Sample.runtime Sample.providerReactivation = .ok p ∧
      IsReactivation Sample.runtime p Sample.withdrawnState ∧
      validateMultisignatureUpdate Sample.runtime Sample.withdrawnState.recordKey
        Sample.providerReactivation (some Sample.withdrawnState) none = .error alreadyWithdrawn :=
  ⟨_, (Reachable.start Sample.activeState_eq).step Sample.withdrawnState_eq,
    withdrawnState_withdrawn, eq_ok_valueOf isOk_reactivation, sampleReactivation,
    sampleReactivation.refused withdrawnState_withdrawn (eq_ok_valueOf isOk_reactivation)⟩

end DecentRegistry
