import DecentRegistry.Authority.Decoding
import DecentRegistry.Foundations.Quorum

/-!
# Threshold proofs

`validateThresholdProofs` accepts exactly the proof lists of `ThresholdProofs`: enough proofs, no
signer twice, every proof by a member and valid. Proofs name their signer by identifier; since the
keys of a signer set are distinct, distinct identifiers are distinct keys, and accepted proofs are
a quorum of keys (`ThresholdProofs.quorum`).
-/

namespace DecentRegistry

open Fallible PyValue Quorum

variable {rt : Runtime}

/-- The envelope carries a valid signature by `publicKey` over its SignedUpdate. -/
def CarriesSignatureBy (rt : Runtime) (envelope : MultisignatureEnvelope) (publicKey : Bytes) :
    Prop :=
  ∃ proof ∈ envelope.proofs,
    verifyEd25519Signature rt publicKey envelope.signedUpdateBytes proof.signature = .ok true

/-- What `validateThresholdProofs` checks. -/
structure ThresholdProofs (rt : Runtime) (signedUpdateBytes : Bytes) (proofs : List Proof)
    (signerSet : List SignerEntry) (threshold : ℕ) : Prop where
  enough : threshold ≤ proofs.length
  signers_nodup : (proofs.map (·.signerId)).Nodup
  valid : ∀ proof ∈ proofs, ∃ publicKey, lookupSigner signerSet proof.signerId = some publicKey ∧
    verifyEd25519Signature rt publicKey signedUpdateBytes proof.signature = .ok true

@[simp] theorem requireValidProof_eq_ok {publicKey signedUpdateBytes signature : Bytes}
    {message : String} {u : Unit} :
    requireValidProof rt publicKey signedUpdateBytes signature message = .ok u ↔
      verifyEd25519Signature rt publicKey signedUpdateBytes signature = .ok true := by
  simp [requireValidProof]

/-- The loop returns the identifiers seen before it and those of the proofs. -/
theorem checkThresholdProofs_eq_ok {signedUpdateBytes : Bytes} {signerSet : List SignerEntry}
    {proofs : List Proof} {seen seen' : List (Option Text)} :
    checkThresholdProofs rt signedUpdateBytes signerSet proofs seen = .ok seen' ↔
      seen ++ proofs.map (·.signerId) = seen' ∧ (proofs.map (·.signerId)).Nodup ∧
        (∀ proof ∈ proofs, proof.signerId ∉ seen) ∧
        ∀ proof ∈ proofs, ∃ publicKey, lookupSigner signerSet proof.signerId = some publicKey ∧
          verifyEd25519Signature rt publicKey signedUpdateBytes proof.signature = .ok true := by
  induction proofs generalizing seen with
  | nil => simp [checkThresholdProofs]
  | cons proof rest ih =>
    simp only [checkThresholdProofs, bind_eq_ok, raiseIf_eq_ok, orRaise_eq_ok,
      requireValidProof_eq_ok, ih, List.map_cons, List.nodup_cons, List.forall_mem_cons,
      List.append_assoc, List.singleton_append, List.mem_append, List.mem_singleton, not_or,
      exists_const, List.mem_map, not_exists, not_and]
    constructor
    · rintro ⟨fresh, key, hkey, hvalid, rfl, nodup, unseen, valid⟩
      exact ⟨rfl, ⟨fun q hq => (unseen q hq).2, nodup⟩, ⟨fresh, fun q hq => (unseen q hq).1⟩,
        ⟨key, hkey, hvalid⟩, valid⟩
    · rintro ⟨rfl, ⟨other, nodup⟩, ⟨fresh, unseen⟩, ⟨key, hkey, hvalid⟩, valid⟩
      exact ⟨fresh, key, hkey, hvalid, rfl, nodup, fun q hq => ⟨unseen q hq, other q hq⟩, valid⟩

/-- **`validateThresholdProofs` accepts exactly `ThresholdProofs`.** -/
theorem validateThresholdProofs_eq_ok {signedUpdateBytes : Bytes}
    {envelope : MultisignatureEnvelope} {signerSet : List SignerEntry} {threshold : ℕ} {u : Unit} :
    validateThresholdProofs rt signedUpdateBytes envelope signerSet threshold = .ok u ↔
      ThresholdProofs rt signedUpdateBytes envelope.proofs signerSet threshold := by
  simp only [validateThresholdProofs, bind_eq_ok, raiseIf_eq_ok, checkThresholdProofs_eq_ok, not_lt,
    exists_const]
  constructor
  · rintro ⟨enough, _, ⟨rfl, nodup, -, valid⟩, -⟩
    exact ⟨enough, nodup, valid⟩
  · rintro ⟨enough, nodup, valid⟩
    exact ⟨enough, _, ⟨rfl, nodup, by simp, valid⟩, by simpa using enough⟩

/-! ## From identifiers to keys -/

/-- A name is found only if an entry has it. -/
theorem mem_of_lookupSigner {signerSet : List SignerEntry} {signerId : Option Text}
    {publicKey : Bytes} (h : lookupSigner signerSet signerId = some publicKey) :
    ∃ entry ∈ signerSet, some entry.signerId = signerId ∧ entry.publicKey = publicKey := by
  cases signerId with
  | none => cases h
  | some name =>
    simp only [lookupSigner, Option.map_eq_some_iff] at h
    obtain ⟨entry, hfind, hkey⟩ := h
    refine ⟨entry, List.mem_reverse.1 (List.mem_of_find?_eq_some hfind), ?_, hkey⟩
    simpa using List.find?_some hfind

/-- Distinct keys make the lookup injective. -/
theorem CanonicalSigners.lookupSigner_inj {signerSet : List SignerEntry}
    (h : CanonicalSigners signerSet) (a b : Option Text) (publicKey : Bytes)
    (ha : lookupSigner signerSet a = some publicKey)
    (hb : lookupSigner signerSet b = some publicKey) : a = b := by
  obtain ⟨entry, hmem, rfl, hkey⟩ := mem_of_lookupSigner ha
  obtain ⟨entry', hmem', rfl, hkey'⟩ := mem_of_lookupSigner hb
  rw [List.inj_on_of_nodup_map h.keys_nodup hmem hmem' (hkey.trans hkey'.symm)]

/-- **Accepted proofs are a quorum of the signer set's keys.** -/
theorem ThresholdProofs.quorum {envelope : MultisignatureEnvelope} {signerSet : List SignerEntry}
    {threshold : ℕ}
    (h : ThresholdProofs rt envelope.signedUpdateBytes envelope.proofs signerSet threshold)
    (canonical : CanonicalSigners signerSet) :
    IsQuorum (signerSet.map (·.publicKey)) (CarriesSignatureBy rt envelope) threshold := by
  have hquorum : IsQuorum (signerSet.map (·.publicKey)) (CarriesSignatureBy rt envelope)
      (envelope.proofs.map (·.signerId)).length := by
    refine quorum_of_names h.signers_nodup canonical.lookupSigner_inj ?_
    intro signerId hmem
    obtain ⟨proof, hproof, rfl⟩ := List.mem_map.1 hmem
    obtain ⟨publicKey, hlookup, hvalid⟩ := h.valid proof hproof
    obtain ⟨entry, hentry, -, hkey⟩ := mem_of_lookupSigner hlookup
    exact ⟨publicKey, hlookup, List.mem_map.2 ⟨entry, hentry, hkey⟩, proof, hproof, hvalid⟩
  exact hquorum.mono_size (by simpa using h.enough)

end DecentRegistry
