import DecentRegistry.Authority.Legacy
import DecentRegistry.Foundations.OrderedMap
import DecentRegistry.Model.MultisigBundle
import DecentRegistry.Wire.RoundTrip

/-!
# Bundles and their envelopes

What the steps of the bundle workflow establish. A bundle is finalized exactly when its wire
envelope can be written, every proof is bound to the bundle's SignedUpdate, and the proofs are
sufficient by the bundle's own signer set (`finalizeBundle_eq_ok`). The Registry reads the wire
envelope as the candidate `MultisignatureBundle.candidate`, and accepts it exactly when that
candidate is a step (`MultisignatureBundle.accepted_iff`). -/

namespace DecentRegistry

open Fallible PyValue

/-! ## Signer sets -/

section

variable {signerSet : List SignerEntry}

/-- A name stands for the key it is listed with. -/
theorem CanonicalSigners.lookupSigner_eq_some (h : CanonicalSigners signerSet) {signerId : Text}
    {publicKey : Bytes} :
    lookupSigner signerSet (some signerId) = some publicKey ↔
      (⟨signerId, publicKey⟩ : SignerEntry) ∈ signerSet := by
  have hnodup : (signerSet.reverse.map (·.signerId)).Nodup := by
    rw [List.map_reverse, List.nodup_reverse]
    exact h.ids_nodup
  simp only [lookupSigner, Option.map_eq_some_iff, find?_key_eq_some hnodup, List.mem_reverse]
  constructor
  · rintro ⟨entry, ⟨hmem, rfl⟩, rfl⟩
    exact hmem
  · intro hmem
    exact ⟨_, ⟨hmem, rfl⟩, rfl⟩

/-- A key stands for the name it is listed with. -/
theorem CanonicalSigners.find?_publicKey (h : CanonicalSigners signerSet) {publicKey : Bytes}
    {entry : SignerEntry} :
    signerSet.find? (·.publicKey = publicKey) = some entry ↔
      entry ∈ signerSet ∧ entry.publicKey = publicKey := find?_key_eq_some h.keys_nodup

theorem signerIdForPublicKey_eq_ok {a : Authorization} (h : CanonicalSigners a.signerSet)
    {signerId : Text} {publicKey : Bytes} :
    signerIdForPublicKey a publicKey = .ok signerId ↔
      (⟨signerId, publicKey⟩ : SignerEntry) ∈ a.signerSet := by
  have hunique : ∀ x ∈ a.signerSet.filter (·.publicKey = publicKey),
      ∀ y ∈ a.signerSet.filter (·.publicKey = publicKey), x = y := by
    intro x hx y hy
    simp only [List.mem_filter, decide_eq_true_eq] at hx hy
    exact List.inj_on_of_nodup_map h.keys_nodup hx.1 hy.1 (hx.2.trans hy.2.symm)
  have hnodup : (a.signerSet.filter (·.publicKey = publicKey)).Nodup :=
    (List.Nodup.of_map _ h.keys_nodup).filter _
  have hmem (entry : SignerEntry) : entry ∈ a.signerSet.filter (·.publicKey = publicKey) ↔
      entry ∈ a.signerSet ∧ entry.publicKey = publicKey := by simp
  unfold signerIdForPublicKey
  split
  · rename_i entry hentry
    rw [hentry] at hmem
    have hlisted := (hmem entry).1 (by simp)
    rw [pure_eq_ok]
    constructor
    · rintro rfl
      rw [← hlisted.2]
      exact hlisted.1
    · intro hother
      have := (hmem _).2 ⟨hother, rfl⟩
      rw [List.mem_singleton] at this
      rw [← this]
  · rename_i hnot
    simp only [throw_eq_ok_iff, false_iff]
    intro hlisted
    have hfirst := (hmem _).2 ⟨hlisted, rfl⟩
    cases hfilter : a.signerSet.filter (·.publicKey = publicKey) with
    | nil =>
      rw [hfilter] at hfirst
      cases hfirst
    | cons x rest =>
      cases rest with
      | nil => exact hnot x hfilter
      | cons y rest =>
        rw [hfilter] at hunique hnodup
        have hsame := hunique x (by simp) y (by simp)
        simp [hsame] at hnodup

end

variable {rt : Runtime}

/-! ## Finalization -/

/-- What `_validate_proof` checks. -/
structure ValidProof (b : MultisignatureBundle rt) (p : MultisignatureProof) : Prop where
  bound : p.signedUpdateBytes = b.signedUpdateBytes
  length : p.signature.length = 64
  valid : ∃ publicKey, lookupSigner b.signerSet (some p.signerId) = some publicKey ∧
    verifyEd25519Signature rt publicKey b.signedUpdateBytes p.signature = .ok true

theorem validateProof_eq_ok {b : MultisignatureBundle rt} {p : MultisignatureProof} {u : Unit} :
    validateProof b p = .ok u ↔ ValidProof b p := by
  simp only [validateProof, bind_eq_ok, raiseIf_eq_ok, orRaise_eq_ok, requireValidProof_eq_ok,
    exists_const, not_not]
  constructor
  · rintro ⟨hbound, key, hkey, hlength, hvalid⟩
    exact ⟨hbound, hlength, key, hkey, hvalid⟩
  · rintro ⟨hbound, hlength, key, hkey, hvalid⟩
    exact ⟨hbound, key, hkey, hlength, hvalid⟩

/-- The loop returns the identifiers seen before it and those of the proofs. -/
theorem checkBundleProofs_eq_ok {b : MultisignatureBundle rt} {proofs : List MultisignatureProof}
    {seen seen' : List Text} :
    checkBundleProofs b proofs seen = .ok seen' ↔
      seen ++ proofs.map (·.signerId) = seen' ∧ (proofs.map (·.signerId)).Nodup ∧
        (∀ p ∈ proofs, p.signerId ∉ seen) ∧ ∀ p ∈ proofs, ValidProof b p := by
  induction proofs generalizing seen with
  | nil => simp [checkBundleProofs]
  | cons p rest ih =>
    simp only [checkBundleProofs, bind_eq_ok, raiseIf_eq_ok, validateProof_eq_ok, ih, List.map_cons,
      List.nodup_cons, List.forall_mem_cons, List.append_assoc, List.singleton_append,
      List.mem_append, List.mem_singleton, not_or, exists_const, List.mem_map, not_exists, not_and]
    constructor
    · rintro ⟨fresh, hvalid, rfl, nodup, unseen, valid⟩
      exact ⟨rfl, ⟨fun q hq => (unseen q hq).2, nodup⟩, ⟨fresh, fun q hq => (unseen q hq).1⟩,
        hvalid, valid⟩
    · rintro ⟨rfl, ⟨other, nodup⟩, ⟨fresh, unseen⟩, hvalid, valid⟩
      exact ⟨fresh, hvalid, rfl, nodup, fun q hq => ⟨unseen q hq, other q hq⟩, valid⟩

namespace MultisignatureBundle

variable {b : MultisignatureBundle rt}

/-- Every proof is bound to the bundle's SignedUpdate. -/
def Bound (b : MultisignatureBundle rt) : Prop :=
  ∀ p ∈ b.proofs, p.signedUpdateBytes = b.signedUpdateBytes

/-- The proofs as the wire envelope carries them. -/
def wireProofs (b : MultisignatureBundle rt) : List Proof := b.proofs.map (·.proof)

/-- The candidate that the Registry reads from the wire envelope. -/
def candidate (b : MultisignatureBundle rt) (recordKey : Bytes) : Candidate :=
  { signedUpdateBytes := b.signedUpdateBytes
    envelope := ⟨1, b.signedUpdateBytes, b.wireProofs⟩
    recordFields := b.signedUpdate.recordFields
    payload := b.signedUpdate.payload
    seq := b.signedUpdate.seq
    derivedRecordKey := recordKey
    authorization := b.authorization }

theorem canonical (b : MultisignatureBundle rt) : b.authorization.Canonical :=
  (decodeMultisignatureSignedUpdate_canonical b.decodes).1

theorem binding (b : MultisignatureBundle rt) :
    RecordBinding b.signedUpdate.recordFields b.signedUpdate.payload b.recordKind :=
  (decodeMultisignatureSignedUpdate_canonical b.decodes).2

theorem sorted_wireProofs (b : MultisignatureBundle rt) :
    sortedBy proofSortKey b.wireProofs = b.wireProofs := by
  have hpairwise := pairwise_sortedBy MultisignatureProof.sortKey b.proofs
  rw [b.sorted] at hpairwise
  refine List.Pairwise.insertionSort_eq ?_
  rw [wireProofs, List.pairwise_map]
  exact hpairwise

end MultisignatureBundle

theorem Proof.IsRead.eq_of_toValue {p q : Proof} {map : Dict} (hp : p.toValue = .dict map)
    (hq : q.IsRead map) : q = p := by
  obtain ⟨id, signature⟩ := p
  obtain ⟨id', signature'⟩ := q
  obtain rfl := Value.dict.inj hp
  have hid := hq.signerId
  have hsignature := hq.signature
  have hsame : signature' = signature := by
    simpa [Atom.isInt, Atom.int?] using hsignature.symm
  have hnames : id' = id := by
    cases id <;> cases id' <;> simp [Atom.isInt, Atom.int?] at hid ⊢
    exact hid.symm
  rw [hsame, hnames]

/-- What is read from the wire form of proofs is the proofs. -/
theorem readsProofs_toWire {proofs : List MultisignatureProof} {read : List Proof}
    (h : ReadsProofs (proofs.map MultisignatureProof.toWire) read) :
    read = proofs.map (·.proof) := by
  have hreads := h.reads
  rw [List.forall₂_map_left_iff] at hreads
  have hsame : List.Forall₂ (fun p q => q = p.proof) proofs read := by
    refine hreads.imp ?_
    rintro p q ⟨map, hmap, hq⟩
    exact hq.eq_of_toValue hmap
  clear hreads h
  induction hsame with
  | nil => rfl
  | cons hq _ ih => rw [hq, ih, List.map_cons]

namespace MultisignatureBundle

variable {b : MultisignatureBundle rt} {e : Bytes}

/-- What is written for a bundle. -/
theorem toCbor_eq_ok : b.toCbor = .ok e ↔
    ReadsProofs (b.proofs.map MultisignatureProof.toWire) b.wireProofs ∧
      rt.dumps (MultisignatureEnvelope.toValue ⟨1, b.signedUpdateBytes, b.wireProofs⟩) =
        some e := by
  rw [toCbor, encodeMultisignatureEnvelope_eq_ok]
  constructor
  · rintro ⟨_, read, u, ⟨⟩, hread, hu, hdumps⟩
    obtain rfl := readsProofs_toWire hread
    refine ⟨hread, ?_⟩
    rw [← b.sorted_wireProofs]
    exact hdumps
  · rintro ⟨hread, hdumps⟩
    refine ⟨_, _, _, rfl, hread, b.decodes, ?_⟩
    rw [b.sorted_wireProofs]
    exact hdumps

/-- **The wire envelope decodes to the SignedUpdate and the proofs of the bundle.** -/
theorem decode_toCbor (hrt : rt.Canonical) (h : b.toCbor = .ok e) :
    decodeMultisignatureEnvelope rt e = .ok ⟨1, b.signedUpdateBytes, b.wireProofs⟩ := by
  obtain ⟨_, read, ⟨⟩, hread, hdecode⟩ := decode_of_encode_envelope hrt h
  obtain rfl := readsProofs_toWire hread
  rw [← b.sorted_wireProofs]
  exact hdecode

/-- The signers of proofs that can be written are distinct, and the signatures have 64 bytes. -/
theorem proofs_of_toCbor (h : b.toCbor = .ok e) :
    (b.proofs.map (·.signerId)).Nodup ∧ ∀ p ∈ b.proofs, p.signature.length = 64 := by
  obtain ⟨hread, -⟩ := toCbor_eq_ok.1 h
  constructor
  · have hapart := hread.apart
    rw [wireProofs, List.pairwise_map] at hapart
    rw [List.Nodup, List.pairwise_map]
    exact hapart.imp fun h heq => h (congrArg some heq)
  · intro p hp
    obtain ⟨v, -, map, -, hread⟩ := DistinctReading.exists_read hread.reads (List.mem_map_of_mem hp)
    exact hread.length

/-- The key that the Registry derives of the bundle's record. -/
def DerivesKey (b : MultisignatureBundle rt) (recordKey : Bytes) : Prop :=
  match b.recordKind with
  | .identity => ∃ owner,
      extractIdentityAndKeys rt b.signedUpdate.recordFields = .ok (recordKey, owner)
  | .provider => ∃ owner, extractProviderAndKeys b.signedUpdate.recordFields
      b.signedUpdate.payload = .ok (recordKey, owner)

theorem candidate_reads (hrt : rt.Canonical) {recordKey : Bytes} (hkey : b.DerivesKey recordKey)
    (h : b.toCbor = .ok e) : (b.candidate recordKey).Reads rt e :=
  ⟨decode_toCbor hrt h, rfl, b.decodes, hkey⟩

/-- **The Registry accepts the wire envelope of a bundle exactly when its candidate is a step.** -/
theorem accepted_iff (hrt : rt.Canonical) {recordKey : Bytes} (hkey : b.DerivesKey recordKey)
    (hop : b.authorization.operation ≠ .ownerKeyRotation) (h : b.toCbor = .ok e)
    {current : Option MultisignatureState} {anchor : Option Bytes} :
    (∃ s, validateMultisignatureUpdate rt recordKey e current anchor = .ok s) ↔
      ∃ history, IsStep rt recordKey e (b.candidate recordKey) current anchor history := by
  have hreads := candidate_reads hrt hkey h
  simp only [validateMultisignatureUpdate_eq_ok]
  constructor
  · rintro ⟨s, p, history, hp, hstep, -⟩
    obtain rfl := hp.unique hreads
    exact ⟨history, hstep⟩
  · rintro ⟨history, hstep⟩
    obtain ⟨owner, -, howner⟩ := hreads.owner
    exact ⟨_, _, history, hreads, hstep, fun hrotation => absurd hrotation hop,
      candidateState_eq_ok.2 ⟨owner, howner, rfl⟩⟩

end MultisignatureBundle

/-! ## Proofs by the bundle's own signers -/

/-- The one proof of an upgrade, by the owner under its name in the new signer set. -/
def OwnerProof (rt : Runtime) (p : Candidate) : Prop :=
  ∃ signerId signature owner, p.envelope.proofs = [⟨some signerId, signature⟩] ∧
    ownerPublicKeyField p.authorization.recordKind p.recordFields = .ok owner ∧
    (⟨signerId, owner⟩ : SignerEntry) ∈ p.authorization.signerSet ∧
    verifyEd25519Signature rt owner p.signedUpdateBytes signature = .ok true

/-- The proofs are sufficient by the signer set that the candidate itself carries. -/
def OwnProofs (rt : Runtime) (p : Candidate) : Prop :=
  if p.authorization.operation = .upgrade then OwnerProof rt p
  else ThresholdProofs rt p.signedUpdateBytes p.envelope.proofs p.authorization.signerSet
    p.authorization.threshold

/-- Proofs of a bundle as the Registry reads them. -/
theorem thresholdProofs_wireProofs {b : MultisignatureBundle rt} {signerSet : List SignerEntry}
    {threshold : ℕ} :
    ThresholdProofs rt b.signedUpdateBytes b.wireProofs signerSet threshold ↔
      threshold ≤ b.proofs.length ∧ (b.proofs.map (·.signerId)).Nodup ∧
        ∀ p ∈ b.proofs, ∃ publicKey, lookupSigner signerSet (some p.signerId) = some publicKey ∧
          verifyEd25519Signature rt publicKey b.signedUpdateBytes p.signature = .ok true := by
  have hids : b.wireProofs.map (·.signerId) = (b.proofs.map (·.signerId)).map some := by
    simp [MultisignatureBundle.wireProofs]
  have hnodup : (b.wireProofs.map (·.signerId)).Nodup ↔ (b.proofs.map (·.signerId)).Nodup := by
    rw [hids]
    exact List.nodup_map_iff (Option.some_injective _)
  constructor
  · rintro ⟨enough, nodup, valid⟩
    refine ⟨by simpa [MultisignatureBundle.wireProofs] using enough, hnodup.1 nodup, fun p hp => ?_⟩
    exact valid p.proof (List.mem_map_of_mem hp)
  · rintro ⟨enough, nodup, valid⟩
    refine ⟨by simpa [MultisignatureBundle.wireProofs] using enough, hnodup.2 nodup, ?_⟩
    intro proof hproof
    obtain ⟨p, hp, rfl⟩ := List.mem_map.1 hproof
    exact valid p hp

namespace MultisignatureBundle

variable {b : MultisignatureBundle rt} {e : Bytes}

/-- The only proof of a bundle, as the Registry reads it. -/
theorem wireProofs_eq_singleton {signerId : Text} {signature : Bytes} :
    b.wireProofs = [⟨some signerId, signature⟩] ↔
      ∃ p, b.proofs = [p] ∧ p.signerId = signerId ∧ p.signature = signature := by
  rw [wireProofs]
  constructor
  · intro h
    obtain ⟨p, rest, hproofs, hp, hrest⟩ := List.map_eq_cons_iff.1 h
    rw [List.map_eq_nil_iff] at hrest
    injection hp with hid hsignature
    exact ⟨p, by rw [hproofs, hrest], Option.some.inj hid, hsignature⟩
  · rintro ⟨p, hproofs, rfl, rfl⟩
    rw [hproofs]
    rfl

/-- The owner's proof of an upgrade, as `finalize_bundle` looks for it. -/
theorem ownerProof_iff {recordKey : Bytes} (hvalid : ∀ p ∈ b.proofs, ValidProof b p) :
    OwnerProof rt (b.candidate recordKey) ↔ b.proofs.length = 1 ∧ ∃ owner p,
      ownerPublicKeyField b.recordKind b.signedUpdate.recordFields = .ok owner ∧
        b.proofs.head? = some p ∧ lookupSigner b.signerSet (some p.signerId) = some owner := by
  constructor
  · rintro ⟨signerId, signature, owner, hproofs, howner, hmem, -⟩
    obtain ⟨p, hone, rfl, -⟩ := wireProofs_eq_singleton.1 hproofs
    have hlookup := b.canonical.signers.lookupSigner_eq_some.2 hmem
    exact ⟨by rw [hone]; rfl, owner, p, howner, by rw [hone]; rfl, hlookup⟩
  · rintro ⟨hlength, owner, p, howner, hhead, hlookup⟩
    obtain ⟨q, hone⟩ := List.length_eq_one_iff.1 hlength
    rw [hone] at hhead
    obtain rfl := Option.some.inj hhead
    obtain ⟨key, hkey, hsigned⟩ := (hvalid q (by simp [hone])).valid
    obtain rfl := Option.some.inj (hkey.symm.trans hlookup)
    exact ⟨q.signerId, q.signature, key, wireProofs_eq_singleton.2 ⟨q, hone, rfl, rfl⟩, howner,
      b.canonical.signers.lookupSigner_eq_some.1 hlookup, hsigned⟩

/-- The checks of `_validate_proof` on all proofs, given the owner's proof or a quorum. -/
theorem validProofs_of_ownProofs {recordKey : Bytes} (h : b.toCbor = .ok e) (hbound : b.Bound)
    (hown : OwnProofs rt (b.candidate recordKey)) : ∀ p ∈ b.proofs, ValidProof b p := by
  obtain ⟨-, hlength⟩ := proofs_of_toCbor h
  intro p hp
  refine ⟨hbound p hp, hlength p hp, ?_⟩
  unfold OwnProofs at hown
  split at hown
  · obtain ⟨signerId, signature, owner, hproofs, -, hmem, hsigned⟩ := hown
    obtain ⟨q, hone, rfl, rfl⟩ := wireProofs_eq_singleton.1 hproofs
    rw [hone, List.mem_singleton] at hp
    subst hp
    exact ⟨owner, b.canonical.signers.lookupSigner_eq_some.2 hmem, hsigned⟩
  · exact (thresholdProofs_wireProofs.1 hown).2.2 p hp

end MultisignatureBundle

/-- **Finalization.** A bundle is finalized to its wire envelope, exactly when that can be written,
the proofs are bound to the bundle, and they are sufficient by its own signer set. -/
theorem finalizeBundle_eq_ok {b : MultisignatureBundle rt} {e recordKey : Bytes} :
    finalizeBundle b = .ok e ↔
      b.toCbor = .ok e ∧ b.Bound ∧ OwnProofs rt (b.candidate recordKey) := by
  have htail : encodeMultisignatureEnvelope rt b.signedUpdateBytes
      (.list (b.proofs.map MultisignatureProof.toWire)) = b.toCbor := rfl
  constructor
  · intro h
    simp only [finalizeBundle, bind_eq_ok, checkBundleProofs_eq_ok, htail] at h
    obtain ⟨_, ⟨rfl, hnodup, -, hvalid⟩, h⟩ := h
    rw [List.nil_append, List.length_map] at h
    have hown : b.toCbor = .ok e ∧ OwnProofs rt (b.candidate recordKey) := by
      unfold OwnProofs
      split at h
      · rename_i hop
        simp only [bind_eq_ok, raiseIf_eq_ok, orRaise_eq_ok, not_not, exists_const] at h
        obtain ⟨hlength, owner, howner, p, hhead, hlookup, hcbor⟩ := h
        refine ⟨hcbor, ?_⟩
        rw [if_pos (show (b.candidate recordKey).authorization.operation = _ from hop)]
        exact (b.ownerProof_iff hvalid).2 ⟨hlength, owner, p, howner, hhead, hlookup⟩
      · rename_i hop
        simp only [bind_eq_ok, raiseIf_eq_ok, not_lt, exists_const] at h
        obtain ⟨henough, hcbor⟩ := h
        refine ⟨hcbor, ?_⟩
        rw [if_neg (show ¬ (b.candidate recordKey).authorization.operation = _ from hop)]
        exact thresholdProofs_wireProofs.2 ⟨henough, hnodup, fun p hp => (hvalid p hp).valid⟩
    exact ⟨hown.1, fun p hp => (hvalid p hp).bound, hown.2⟩
  · rintro ⟨hcbor, hbound, hown⟩
    have hvalid := MultisignatureBundle.validProofs_of_ownProofs hcbor hbound hown
    obtain ⟨hnodup, -⟩ := MultisignatureBundle.proofs_of_toCbor hcbor
    simp only [finalizeBundle, bind_eq_ok, checkBundleProofs_eq_ok, htail]
    refine ⟨_, ⟨rfl, hnodup, by simp, hvalid⟩, ?_⟩
    rw [List.nil_append, List.length_map]
    unfold OwnProofs at hown
    split at hown
    · rename_i hop
      obtain ⟨hlength, owner, p, howner, hhead, hlookup⟩ := (b.ownerProof_iff hvalid).1 hown
      rw [if_pos (show b.authorization.operation = _ from hop)]
      simp only [bind_eq_ok, raiseIf_eq_ok, orRaise_eq_ok, not_not, exists_const]
      exact ⟨hlength, owner, howner, p, hhead, hlookup, hcbor⟩
    · rename_i hop
      have henough : b.threshold ≤ b.proofs.length := (thresholdProofs_wireProofs.1 hown).1
      rw [if_neg (show ¬ b.authorization.operation = _ from hop)]
      simp only [bind_eq_ok, raiseIf_eq_ok, not_lt, exists_const]
      exact ⟨henough, hcbor⟩

end DecentRegistry
