import DecentRegistry.Authority.Standalone
import DecentRegistry.Sample.Records

/-!
# Signer sets of envelopes that are judged on their own

A multisignature record starts with a complete 2-of-3 signer set at epoch 1, and the transitions
keep the set complete. `validate_multisignature_envelope` judges an envelope without its
predecessor, and asks for a complete set of a genesis and an upgrade only: a Provider's ordinary
update and signer replacement are checked against whatever set they carry. The state they are read
as is complete exactly when their authorization map says so (`standaloneSet_complete_iff`).
-/

namespace DecentRegistry

open Fallible PyValue

variable {rt : Runtime}

/-- A complete 2-of-3 signer set, at an epoch that a record can be in. -/
structure CompleteSet (threshold : ℕ) (signerSet : List SignerEntry) (epoch : ℕ) : Prop where
  threshold : threshold = 2
  size : signerSet.length = 3
  ids_nodup : (signerSet.map (·.signerId)).Nodup
  keys_nodup : (signerSet.map (·.publicKey)).Nodup
  epoch_pos : 1 ≤ epoch

/-- The envelope is a genesis or an upgrade, or its authorization map passes
`_require_complete_2_of_3` with an epoch other than 0. -/
def DeclaresComplete (rt : Runtime) (e : Bytes) : Prop :=
  ∃ p, decodeMultisignatureCandidate rt e = .ok p ∧
    (p.authorization.operation = .genesis ∨ p.authorization.operation = .upgrade ∨
      requireComplete2of3 p.authorization = .ok () ∧ p.authorization.epoch ≠ 0)

/-- What an envelope declares is what its one reading says. -/
theorem declaresComplete_iff {e : Bytes} {p : Candidate} (hp : p.Reads rt e) :
    DeclaresComplete rt e ↔
      p.authorization.operation = .genesis ∨ p.authorization.operation = .upgrade ∨
        requireComplete2of3 p.authorization = .ok () ∧ p.authorization.epoch ≠ 0 := by
  constructor
  · rintro ⟨q, hq, h⟩
    obtain rfl := hp.unique (decodeMultisignatureCandidate_eq_ok.1 hq)
    exact h
  · intro h
    exact ⟨p, decodeMultisignatureCandidate_eq_ok.2 hp, h⟩

/-- A genesis and an upgrade carry a complete set. -/
theorem IsStandalone.complete {recordKey e : Bytes} {p : Candidate}
    {history : Option (List Bytes)} (h : IsStandalone rt recordKey e p history)
    (hop : p.authorization.operation = .genesis ∨ p.authorization.operation = .upgrade) :
    p.authorization.threshold = 2 ∧ p.authorization.signerSet.length = 3 ∧
      p.authorization.epoch = 1 := by
  cases h with
  | genesis h => exact ⟨h.threshold, h.size, h.epoch⟩
  | upgrade _ _ _ epoch threshold size => exact ⟨threshold, size, epoch⟩
  | ownSigners operation =>
    rcases operation with operation | operation <;> simp [operation] at hop

/-- The set an accepted envelope carries. -/
theorem IsStandalone.completeSet_iff {recordKey e : Bytes} {p : Candidate}
    {history : Option (List Bytes)} (hp : p.Reads rt e)
    (h : IsStandalone rt recordKey e p history) :
    CompleteSet p.authorization.threshold p.authorization.signerSet p.authorization.epoch ↔
      DeclaresComplete rt e := by
  have signers := hp.canonical.signers
  rw [declaresComplete_iff hp, requireComplete2of3_eq_ok]
  constructor
  · intro hset
    have hpos := hset.epoch_pos
    exact .inr (.inr ⟨⟨hset.threshold, hset.size⟩, by omega⟩)
  · intro hdeclared
    have hset : p.authorization.threshold = 2 ∧ p.authorization.signerSet.length = 3 ∧
        1 ≤ p.authorization.epoch := by
      rcases hdeclared with hop | hop | ⟨⟨hthreshold, hsize⟩, hepoch⟩
      · obtain ⟨hthreshold, hsize, hepoch⟩ := h.complete (.inl hop)
        exact ⟨hthreshold, hsize, hepoch.ge⟩
      · obtain ⟨hthreshold, hsize, hepoch⟩ := h.complete (.inr hop)
        exact ⟨hthreshold, hsize, hepoch.ge⟩
      · exact ⟨hthreshold, hsize, by omega⟩
    exact ⟨hset.1, hset.2.1, signers.ids_nodup, signers.keys_nodup, hset.2.2⟩

theorem validateMultisignatureEnvelope_completeSet_iff {recordKey e : Bytes}
    {s : MultisignatureState} (h : validateMultisignatureEnvelope rt recordKey e = .ok s) :
    CompleteSet s.threshold s.signerSet s.epoch ↔ DeclaresComplete rt e := by
  obtain ⟨p, history, hp, hstandalone, hs⟩ := validateMultisignatureEnvelope_eq_ok.1 h
  obtain ⟨owner, -, rfl⟩ := candidateState_eq_ok.1 hs
  exact hstandalone.completeSet_iff hp

/-- The metadata of a state repeats its signer set, threshold and epoch. -/
theorem authorizationMetadata_set {s : MultisignatureState} {a : AuthorizationMetadata}
    {u : MultisignatureUpdate} (hs : s.Reads rt u) (h : authorizationMetadata rt s = .ok a) :
    a.threshold = s.threshold ∧ a.signerSet = s.signerSet ∧ a.epoch = s.epoch := by
  simp only [authorizationMetadata, hs.update, ok_bind, pure_eq_ok] at h
  subst h
  exact ⟨hs.threshold.symm, rfl, hs.epoch.symm⟩

/-- A Provider Record that is read comes from the state of the envelope on its own. -/
theorem validateProviderGet_record {recordKey e : Bytes} {existing : Option Bytes}
    {r : ProviderRecordResult} (h : validateProviderGet rt recordKey e existing = .ok (.record r)) :
    ∃ s, validateMultisignatureEnvelope rt recordKey e = .ok s ∧
      authorizationMetadata rt s = .ok r.authorization := by
  unfold validateProviderGet at h
  split at h
  · simp only [validateMultisignatureProviderGet, bind_eq_ok] at h
    obtain ⟨_, -, _, -, payload, -, h⟩ := h
    cases payload with
    | withdrawn payload =>
      simp only [bind_eq_ok, pure_eq_ok, reduceCtorEq, and_false, exists_false] at h
    | active payload =>
      simp only [bind_eq_ok, pure_eq_ok, ProviderRead.record.injEq] at h
      obtain ⟨s, hs, a, ha, rfl⟩ := h
      exact ⟨s, hs, ha⟩
  · simp only [validateLegacyProviderGet, bind_eq_ok] at h
    obtain ⟨_, -, _, -, payload, -, h⟩ := h
    cases payload with
    | withdrawn payload =>
      simp only [bind_eq_ok, pure_eq_ok, reduceCtorEq, and_false, exists_false] at h
    | active payload =>
      simp only [bind_eq_ok, pure_eq_ok, reduceCtorEq, and_false, exists_false] at h

/-- The signer set of a Provider Record that is read. -/
def recordSet : ProviderRead → Option (ℕ × List SignerEntry × ℕ)
  | .record r => some (r.authorization.threshold, r.authorization.signerSet, r.authorization.epoch)
  | _ => none

theorem record_of_get (e : Bytes) (threshold : ℕ) (signerSet : List SignerEntry) (epoch : ℕ)
    (h : (validateProviderGet Sample.runtime Sample.providerKey e none).map recordSet =
      .ok (some (threshold, signerSet, epoch))) :
    ∃ r, validateProviderGet Sample.runtime Sample.providerKey e none = .ok (.record r) ∧
      (r.authorization.threshold, r.authorization.signerSet, r.authorization.epoch) =
        (threshold, signerSet, epoch) := by
  cases hget : validateProviderGet Sample.runtime Sample.providerKey e none with
  | error err =>
    rw [hget] at h
    cases h
  | ok read =>
    rw [hget] at h
    cases read with
    | record r => exact ⟨r, rfl, Option.some.inj (Except.ok.inj h)⟩
    | payload p => cases h
    | withdrawn r => cases h

/-- **When the state an envelope is read as has a complete signer set**, for every accepted envelope
and for every Provider Record that is read. -/
theorem standaloneSet_complete_iff (rt : Runtime) (recordKey e : Bytes) :
    (∀ s, validateMultisignatureEnvelope rt recordKey e = .ok s →
      (CompleteSet s.threshold s.signerSet s.epoch ↔ DeclaresComplete rt e)) ∧
    ∀ existing r, validateProviderGet rt recordKey e existing = .ok (.record r) →
      (CompleteSet r.authorization.threshold r.authorization.signerSet r.authorization.epoch ↔
        DeclaresComplete rt e) := by
  refine ⟨fun s h => validateMultisignatureEnvelope_completeSet_iff h, fun existing r h => ?_⟩
  obtain ⟨s, hs, ha⟩ := validateProviderGet_record h
  obtain ⟨p, history, hp, -, hstate⟩ := validateMultisignatureEnvelope_eq_ok.1 hs
  obtain ⟨hthreshold, hset, hepoch⟩ := authorizationMetadata_set (hp.state hstate) ha
  rw [hthreshold, hset, hepoch]
  exact validateMultisignatureEnvelope_completeSet_iff hs

/-- The genesis of the sample Provider has a complete set, and is read with it. -/
theorem providerGenesis_complete :
    ∃ s r, validateMultisignatureEnvelope Sample.runtime Sample.providerKey Sample.providerGenesis =
        .ok s ∧
      validateProviderGet Sample.runtime Sample.providerKey Sample.providerGenesis none =
        .ok (.record r) ∧
      CompleteSet s.threshold s.signerSet s.epoch ∧
      CompleteSet r.authorization.threshold r.authorization.signerSet r.authorization.epoch := by
  obtain ⟨hok, hget, hop⟩ :
      (validateMultisignatureEnvelope Sample.runtime Sample.providerKey
        Sample.providerGenesis).isOk = true ∧
      (validateProviderGet Sample.runtime Sample.providerKey Sample.providerGenesis none).map
        recordSet = .ok (some (2, Sample.signers ['a', 'b', 'c'], 1)) ∧
      (·.authorization.operation) <$> decodeMultisignatureCandidate Sample.runtime
        Sample.providerGenesis = .ok .genesis := by
    decide +kernel
  have hs := eq_ok_valueOf hok
  obtain ⟨r, hr, -⟩ := record_of_get _ _ _ _ hget
  obtain ⟨p, hp, hop⟩ := map_eq_ok.1 hop
  have declared : DeclaresComplete Sample.runtime Sample.providerGenesis := ⟨p, hp, .inl hop⟩
  obtain ⟨envelope, get⟩ := standaloneSet_complete_iff Sample.runtime Sample.providerKey
    Sample.providerGenesis
  exact ⟨_, r, hs, hr, (envelope _ hs).2 declared, (get none r hr).2 declared⟩

/-- An ordinary update that names one signer and the epoch 0 is accepted on its own, and read as a
Provider Record. -/
theorem soloProvider_incomplete :
    ∃ s r, validateMultisignatureEnvelope Sample.runtime Sample.providerKey Sample.soloProvider =
        .ok s ∧
      validateProviderGet Sample.runtime Sample.providerKey Sample.soloProvider none =
        .ok (.record r) ∧
      (s.threshold, s.signerSet, s.epoch) = (1, Sample.signers ['a'], 0) ∧
      (r.authorization.threshold, r.authorization.signerSet, r.authorization.epoch) =
        (1, Sample.signers ['a'], 0) ∧
      ¬ CompleteSet s.threshold s.signerSet s.epoch ∧
      ¬ CompleteSet r.authorization.threshold r.authorization.signerSet
        r.authorization.epoch := by
  obtain ⟨henvelope, hget⟩ :
      (fun s => (s.threshold, s.signerSet, s.epoch)) <$> validateMultisignatureEnvelope
        Sample.runtime Sample.providerKey Sample.soloProvider = .ok (1, Sample.signers ['a'], 0) ∧
      (validateProviderGet Sample.runtime Sample.providerKey Sample.soloProvider none).map
        recordSet = .ok (some (1, Sample.signers ['a'], 0)) := by
    decide +kernel
  obtain ⟨s, hs, hset⟩ := map_eq_ok.1 henvelope
  obtain ⟨r, hr, hset'⟩ := record_of_get _ _ _ _ hget
  refine ⟨s, r, hs, hr, hset, hset', fun h => ?_, fun h => ?_⟩
  · have hone : s.threshold = 1 := congrArg Prod.fst hset
    have htwo := h.threshold
    omega
  · have hone : r.authorization.threshold = 1 := congrArg Prod.fst hset'
    have htwo := h.threshold
    omega

end DecentRegistry
