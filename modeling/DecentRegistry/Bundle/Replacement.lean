import DecentRegistry.Bundle.Merging
import DecentRegistry.Sample.States
import Mathlib.Data.List.Permutation

/-!
# Replacing signers with a bundle

A replacement is authorized by the signers of the state that it replaces, while a bundle signs,
merges and finalizes by the signers that it installs. So the workflow reaches the Registry only
where the two sets overlap: a choice of current signers gets the replacement accepted exactly when
all of them stay, and a finalized replacement is accepted exactly when all its proofs are of signers
that stay (`replacement_realized_iff`). -/

namespace DecentRegistry

open Fallible PyValue

variable {rt : Runtime} {keys : KeyStore}

/-! ## Signing -/

/-- Ed25519 is correct for one SignedUpdate: a private key makes signatures that its public key
verifies, and no signature verifies under two keys of the given signers. -/
structure Ed25519Correct (rt : Runtime) (keys : KeyStore) (signedUpdateBytes : Bytes)
    (signers : List SignerEntry) : Prop where
  verifies : ∀ sk, verifyEd25519Signature rt (keys.publicKey sk) signedUpdateBytes
    (makeSignedUpdateSignature rt keys signedUpdateBytes sk) = .ok true
  length : ∀ sk, (makeSignedUpdateSignature rt keys signedUpdateBytes sk).length = 64
  exclusive : ∀ a ∈ signers, ∀ b ∈ signers, ∀ signature,
    verifyEd25519Signature rt a.publicKey signedUpdateBytes signature = .ok true →
    verifyEd25519Signature rt b.publicKey signedUpdateBytes signature = .ok true →
    a.publicKey = b.publicKey

namespace MultisignatureBundle

variable {b : MultisignatureBundle rt}

/-- Every name in a bundle's signer set can be the name of a proof. -/
theorem signerId_bounds {entry : SignerEntry} (h : entry ∈ b.signerSet) :
    entry.signerId ≠ [] ∧ (utf8 entry.signerId).length ≤ 256 := by
  obtain ⟨map, -, hread⟩ := decodeMultisignatureSignedUpdate_iff.1 b.decodes
  obtain ⟨entries, list, -, hauthorization⟩ := hread.authorization
  obtain ⟨v, -, hentry⟩ := DistinctReading.exists_read hauthorization.reads.reads h
  obtain ⟨map, -, hsigner⟩ := readSignerEntry_eq_ok.1 hentry
  exact ⟨hsigner.nonempty, hsigner.bounded⟩

/-- The proof of one signer by its private key. -/
def proofOf (keys : KeyStore) (b : MultisignatureBundle rt) (entry : SignerEntry)
    (sk : keys.PrivateKey) : Proof :=
  ⟨some entry.signerId, makeSignedUpdateSignature rt keys b.signedUpdateBytes sk⟩

end MultisignatureBundle

/-- A proof of the bundle is made for the entry that has the public key. -/
theorem signBundle_eq_ok {b : MultisignatureBundle rt} {sk : keys.PrivateKey}
    {p : MultisignatureProof} :
    signBundle keys b sk = .ok p ↔ ∃ entry ∈ b.signerSet, entry.publicKey = keys.publicKey sk ∧
      p.signedUpdateBytes = b.signedUpdateBytes ∧ p.proof = b.proofOf keys entry sk := by
  have hfind (entry : SignerEntry) :
      b.signerSet.find? (·.publicKey = keys.publicKey sk) = some entry ↔
        entry ∈ b.signerSet ∧ entry.publicKey = keys.publicKey sk :=
    b.canonical.signers.find?_publicKey
  simp only [signBundle, bind_eq_ok, orRaise_eq_ok, hfind]
  constructor
  · rintro ⟨entry, ⟨hmem, hkey⟩, hmake⟩
    rw [MultisignatureProof.make, dif_neg (MultisignatureBundle.signerId_bounds hmem).1,
      pure_eq_ok] at hmake
    subst hmake
    exact ⟨entry, hmem, hkey, rfl, rfl⟩
  · rintro ⟨entry, hmem, hkey, hbytes, hproof⟩
    refine ⟨entry, ⟨hmem, hkey⟩, ?_⟩
    rw [MultisignatureProof.make, dif_neg (MultisignatureBundle.signerId_bounds hmem).1, pure_eq_ok]
    obtain ⟨bytes, signerId, signature, nonempty⟩ := p
    simp only [MultisignatureProof.proof, MultisignatureBundle.proofOf, Proof.mk.injEq,
      Option.some.injEq] at hproof hbytes
    obtain ⟨rfl, rfl⟩ := hproof
    cases hbytes
    rfl

/-- What is signed by a member of the bundle's signer set is a valid proof. -/
theorem ValidProof.of_signed {b : MultisignatureBundle rt} {signers : List SignerEntry}
    {entry : SignerEntry} {sk : keys.PrivateKey} {p : MultisignatureProof}
    (h : Ed25519Correct rt keys b.signedUpdateBytes signers) (hmem : entry ∈ b.signerSet)
    (hkey : entry.publicKey = keys.publicKey sk)
    (hbytes : p.signedUpdateBytes = b.signedUpdateBytes)
    (hproof : p.proof = b.proofOf keys entry sk) : ValidProof b p := by
  have hid : p.signerId = entry.signerId := Option.some.inj (congrArg Proof.signerId hproof)
  have hsignature : p.signature = makeSignedUpdateSignature rt keys b.signedUpdateBytes sk :=
    congrArg Proof.signature hproof
  refine ⟨hbytes, ?_, entry.publicKey, ?_, ?_⟩
  · rw [hsignature]
    exact h.length sk
  · rw [hid]
    exact b.canonical.signers.lookupSigner_eq_some.2 hmem
  · rw [hkey, hsignature]
    exact h.verifies sk

/-- Valid proofs of distinct signers can be written. -/
theorem MultisignatureBundle.toCbor_of_valid {b : MultisignatureBundle rt}
    (hvalid : ∀ p ∈ b.proofs, ValidProof b p) (hnodup : (b.proofs.map (·.signerId)).Nodup)
    (hdumps : (rt.dumps (MultisignatureEnvelope.toValue
      ⟨1, b.signedUpdateBytes, b.wireProofs⟩)).isSome = true) : ∃ e, b.toCbor = .ok e := by
  have hread : ReadsProofs (b.proofs.map MultisignatureProof.toWire) b.wireProofs := by
    constructor
    · rw [wireProofs, List.forall₂_map_left_iff, List.forall₂_map_right_iff, List.forall₂_same]
      intro p hp
      obtain ⟨key, hkey, -⟩ := (hvalid p hp).valid
      have hbounds := signerId_bounds (b.canonical.signers.lookupSigner_eq_some.1 hkey)
      exact ⟨_, rfl, rfl, rfl, by simpa using hbounds, rfl, (hvalid p hp).length⟩
    · rw [wireProofs, List.pairwise_map]
      rw [List.Nodup, List.pairwise_map] at hnodup
      exact hnodup.imp fun h heq => h (Option.some.inj heq)
  obtain ⟨e, he⟩ := Option.isSome_iff_exists.1 hdumps
  exact ⟨e, toCbor_eq_ok.2 ⟨hread, he⟩⟩

/-! ## The workflow for a choice of signers -/

/-- Current signers, as many as the threshold says, with their private keys. -/
structure Chosen (keys : KeyStore) (s : MultisignatureState)
    (choice : List (SignerEntry × keys.PrivateKey)) : Prop where
  members : ∀ c ∈ choice, c.1 ∈ s.signerSet
  publicKeys : ∀ c ∈ choice, keys.publicKey c.2 = c.1.publicKey
  distinct : (choice.map (·.1)).Nodup
  length : choice.length = s.threshold

/-- The bundle signed with private keys in the given order, merged and finalized. -/
def signAndFinalize (keys : KeyStore) (b : MultisignatureBundle rt)
    (signers : List keys.PrivateKey) : Py Bytes := do
  let proofs ← signers.mapM (signBundle keys b)
  let merged ← mergeProofs b proofs
  finalizeBundle merged

/-- The choice gets the bundle accepted as the successor of `s`, in whatever order they sign. -/
def Realizes (keys : KeyStore) (b : MultisignatureBundle rt) (recordKey : Bytes)
    (s : MultisignatureState) (choice : List (SignerEntry × keys.PrivateKey)) : Prop :=
  ∀ order : List (SignerEntry × keys.PrivateKey), order.Perm choice →
    ∃ e, signAndFinalize keys b (order.map (·.2)) = .ok e ∧
      ∃ s', validateMultisignatureUpdate rt recordKey e (some s) none = .ok s'

/-- The envelope with the proofs of the choice, in any order, can be encoded. -/
def Encodes (keys : KeyStore) (b : MultisignatureBundle rt)
    (choice : List (SignerEntry × keys.PrivateKey)) : Prop :=
  ∀ proofs : List Proof, proofs.Perm (choice.map fun c => b.proofOf keys c.1 c.2) →
    (rt.dumps (MultisignatureEnvelope.toValue ⟨1, b.signedUpdateBytes, proofs⟩)).isSome = true

/-! ## Acceptance of a replacement -/

/-- The rules on the fields do not look at the proofs. -/
theorem FieldRules.congr {recordKey : Bytes} {p : Candidate} {current : Option MultisignatureState}
    {anchor : Option Bytes} (h : FieldRules rt recordKey p current anchor)
    (envelope : MultisignatureEnvelope) :
    FieldRules rt recordKey { p with envelope := envelope } current anchor := by
  cases h with
  | genesis operation epoch predecessor lookupKey threshold size =>
    exact .genesis operation epoch predecessor lookupKey threshold size
  | ordinaryUpdate common operation epoch threshold signerSet =>
    exact .ordinaryUpdate { common with } operation epoch threshold signerSet
  | replaceSigners common operation epoch threshold size signerSet =>
    exact .replaceSigners { common with } operation epoch threshold size signerSet
  | upgrade anchored operation lookupKey recordKind seq epoch predecessor threshold size owner =>
    exact .upgrade anchored operation lookupKey recordKind seq epoch predecessor
      threshold size owner

/-- Bundles over the same SignedUpdate follow the same rules. -/
theorem MultisignatureBundle.Follows.congr {b b' : MultisignatureBundle rt} {recordKey : Bytes}
    {current : Option MultisignatureState} {anchor : Option Bytes}
    (h : b.Follows recordKey current anchor)
    (hbytes : b'.signedUpdateBytes = b.signedUpdateBytes) :
    b'.Follows recordKey current anchor := by
  have hupdate := signedUpdate_congr hbytes
  have hcandidate : b'.candidate recordKey =
      { b.candidate recordKey with envelope := (b'.candidate recordKey).envelope } := by
    simp only [candidate, authorization, hupdate, hbytes]
  constructor
  · have hkey := h.key
    unfold DerivesKey recordKind authorization at hkey ⊢
    rw [hupdate]
    exact hkey
  · rw [hcandidate]
    exact h.rules.congr _

/-- A candidate that follows the rules of a replacement is one exactly when its proofs are a quorum
of the signers that it replaces. -/
theorem FieldRules.replacement_iff {recordKey e : Bytes} {p : Candidate} {s : MultisignatureState}
    (h : FieldRules rt recordKey p (some s) none)
    (hop : p.authorization.operation = .replaceSigners) :
    (∃ history, IsStep rt recordKey e p (some s) none history) ↔
      ThresholdProofs rt p.signedUpdateBytes p.envelope.proofs s.signerSet s.threshold := by
  cases h with
  | ordinaryUpdate _ operation => cases operation.symm.trans hop
  | replaceSigners common operation epoch threshold size signerSet =>
    constructor
    · rintro ⟨history, hstep⟩
      cases hstep with
      | ordinaryUpdate hu => cases hu.operation.symm.trans hop
      | replaceSigners hr => exact hr.proofs
      | rotate hr =>
        obtain ⟨_, -, hrotation⟩ := hr.rotation
        cases hrotation.operation.symm.trans hop
    · intro hproofs
      exact ⟨_, .replaceSigners { common with
        operation := operation
        epoch := epoch
        threshold := threshold
        size := size
        signerSet := signerSet
        proofs := hproofs }⟩

/-- A replacement installs a threshold of two. -/
theorem MultisignatureBundle.Follows.threshold {b : MultisignatureBundle rt} {recordKey : Bytes}
    {s : MultisignatureState} (h : b.Follows recordKey (some s) none)
    (hop : b.authorization.operation = .replaceSigners) : b.threshold = 2 := by
  cases h.rules with
  | ordinaryUpdate _ operation => cases operation.symm.trans hop
  | replaceSigners _ _ _ threshold => exact threshold

/-- A replacement is finalized with proofs that suffice by the signers it installs. -/
theorem finalized_iff_quorum {b : MultisignatureBundle rt} {e : Bytes}
    (hop : b.authorization.operation = .replaceSigners) :
    finalizeBundle b = .ok e ↔ b.toCbor = .ok e ∧ b.Bound ∧
      ThresholdProofs rt b.signedUpdateBytes b.wireProofs b.signerSet b.threshold := by
  have hnot : ¬ (b.candidate []).authorization.operation = .upgrade := by
    rw [show (b.candidate []).authorization.operation = _ from hop]
    decide
  rw [@finalizeBundle_eq_ok _ _ _ [], OwnProofs, if_neg hnot]
  rfl

section Replacement

variable {recordKey : Bytes} {b : MultisignatureBundle rt} {s : MultisignatureState}

/-- **Soundness.** A finalized replacement is accepted exactly when its proofs are of signers that
stay, and as many as the current threshold says. -/
theorem finalized_accepted_iff (hrt : rt.Canonical) (hsigners : CanonicalSigners s.signerSet)
    (hfollows : b.Follows recordKey (some s) none)
    (hop : b.authorization.operation = .replaceSigners)
    (hed : Ed25519Correct rt keys b.signedUpdateBytes (s.signerSet ++ b.signerSet)) {e : Bytes}
    (hfinal : finalizeBundle b = .ok e) :
    (∃ s', validateMultisignatureUpdate rt recordKey e (some s) none = .ok s') ↔
      (∀ p ∈ b.proofs, ∃ entry ∈ s.signerSet, entry ∈ b.signerSet ∧ entry.signerId = p.signerId) ∧
        s.threshold ≤ b.proofs.length := by
  obtain ⟨hcbor, -, hquorum⟩ := (finalized_iff_quorum hop).1 hfinal
  obtain ⟨-, hnodup, hvalid⟩ := thresholdProofs_wireProofs.1 hquorum
  rw [MultisignatureBundle.accepted_iff hrt hfollows.key hfollows.not_rotation hcbor,
    hfollows.rules.replacement_iff hop]
  constructor
  · intro hproofs
    obtain ⟨henough, -, hcurrent⟩ := thresholdProofs_wireProofs.1 hproofs
    refine ⟨fun p hp => ?_, henough⟩
    obtain ⟨new, hnew, hverifies⟩ := hvalid p hp
    obtain ⟨old, hold, hverifies'⟩ := hcurrent p hp
    have hnewMem := b.canonical.signers.lookupSigner_eq_some.1 hnew
    have holdMem := hsigners.lookupSigner_eq_some.1 hold
    have hsame : old = new := hed.exclusive _ (List.mem_append_left _ holdMem) _
      (List.mem_append_right _ hnewMem) _ hverifies' hverifies
    rw [hsame] at holdMem
    exact ⟨_, holdMem, hnewMem, rfl⟩
  · rintro ⟨hstay, henough⟩
    refine thresholdProofs_wireProofs.2 ⟨henough, hnodup, fun p hp => ?_⟩
    obtain ⟨entry, hold, hnew, hid⟩ := hstay p hp
    obtain ⟨key, hkey, hverifies⟩ := hvalid p hp
    rw [← hid] at hkey ⊢
    have hlookup := b.canonical.signers.lookupSigner_eq_some.2 hnew
    obtain rfl := Option.some.inj (hlookup.symm.trans hkey)
    exact ⟨_, hsigners.lookupSigner_eq_some.2 hold, hverifies⟩

/-- Members of the bundle's signer set all sign it. -/
theorem exists_signed {signers : List SignerEntry} {order : List (SignerEntry × keys.PrivateKey)}
    (hed : Ed25519Correct rt keys b.signedUpdateBytes signers)
    (hmembers : ∀ c ∈ order, c.1 ∈ b.signerSet)
    (hkeys : ∀ c ∈ order, keys.publicKey c.2 = c.1.publicKey) :
    ∃ proofs, (order.map (·.2)).mapM (signBundle keys b) = .ok proofs ∧
      (∀ p ∈ proofs, ValidProof b p) ∧
      proofs.map (·.proof) = order.map fun c => b.proofOf keys c.1 c.2 := by
  induction order with
  | nil => exact ⟨[], rfl, by simp, rfl⟩
  | cons c rest ih =>
    have hmem := hmembers c (by simp)
    have hkey := hkeys c (by simp)
    obtain ⟨proofs, hsigned, hvalid, hproofs⟩ := ih
      (fun d hd => hmembers d (List.mem_cons_of_mem _ hd))
      (fun d hd => hkeys d (List.mem_cons_of_mem _ hd))
    obtain ⟨p, hsign, hp, hproof⟩ : ∃ p, signBundle keys b c.2 = .ok p ∧ ValidProof b p ∧
        p.proof = b.proofOf keys c.1 c.2 := by
      let p : MultisignatureProof :=
        { signedUpdateBytes := b.signedUpdateBytes
          signerId := c.1.signerId
          signature := makeSignedUpdateSignature rt keys b.signedUpdateBytes c.2
          nonempty := (MultisignatureBundle.signerId_bounds hmem).1 }
      exact ⟨p, signBundle_eq_ok.2 ⟨c.1, hmem, hkey.symm, rfl, rfl⟩,
        .of_signed hed hmem hkey.symm rfl rfl, rfl⟩
    refine ⟨p :: proofs, ?_, ?_, ?_⟩
    · rw [List.map_cons, List.mapM_cons, hsign, ok_bind, hsigned]
      rfl
    · rw [List.forall_mem_cons]
      exact ⟨hp, hvalid⟩
    · rw [List.map_cons, List.map_cons, hproof, hproofs]

/-- Each private key makes one of the proofs, under a name of the bundle's signer set. -/
theorem signed_inv {sks : List keys.PrivateKey} {proofs : List MultisignatureProof}
    (h : sks.mapM (signBundle keys b) = .ok proofs) : proofs.length = sks.length ∧
      ∀ sk ∈ sks, ∃ p ∈ proofs, ∃ entry ∈ b.signerSet, entry.publicKey = keys.publicKey sk ∧
        p.signerId = entry.signerId := by
  induction sks generalizing proofs with
  | nil =>
    rw [List.mapM_nil, pure_eq_ok] at h
    subst h
    exact ⟨rfl, by simp⟩
  | cons sk rest ih =>
    simp only [List.mapM_cons, bind_eq_ok, pure_eq_ok] at h
    obtain ⟨p, hp, proofs', hrest, rfl⟩ := h
    obtain ⟨hlength, hsigned⟩ := ih hrest
    obtain ⟨entry, hmem, hkey, -, hproof⟩ := signBundle_eq_ok.1 hp
    have hid : p.signerId = entry.signerId := Option.some.inj (congrArg Proof.signerId hproof)
    refine ⟨by rw [List.length_cons, List.length_cons, hlength], ?_⟩
    rw [List.forall_mem_cons]
    constructor
    · exact ⟨p, by simp, entry, hmem, hkey, hid⟩
    · intro sk' hsk'
      obtain ⟨q, hq, hentry⟩ := hsigned sk' hsk'
      exact ⟨q, List.mem_cons_of_mem _ hq, hentry⟩

/-- What merging leaves of a replacement that had no proofs. -/
theorem replacement_merged {merged : MultisignatureBundle rt} {proofs : List MultisignatureProof}
    {signers : List SignerEntry} (hempty : b.proofs = [])
    (hfollows : b.Follows recordKey (some s) none)
    (hop : b.authorization.operation = .replaceSigners)
    (hed : Ed25519Correct rt keys b.signedUpdateBytes (signers ++ b.signerSet))
    (hmerged : Merged b proofs merged) :
    merged.proofs.Perm proofs ∧ merged.Follows recordKey (some s) none ∧
      merged.authorization.operation = .replaceSigners ∧
      Ed25519Correct rt keys merged.signedUpdateBytes (signers ++ merged.signerSet) := by
  have hbytes := hmerged.signedUpdateBytes
  have hperm := hmerged.perm
  rw [hempty, List.append_nil] at hperm
  refine ⟨hperm, hfollows.congr hbytes, ?_, ?_⟩
  · rw [MultisignatureBundle.authorization_congr hbytes]
    exact hop
  · rw [hbytes, MultisignatureBundle.signerSet_congr hbytes]
    exact hed

/-- Signers may be chosen in any order. -/
theorem Chosen.of_perm {choice order : List (SignerEntry × keys.PrivateKey)}
    (h : Chosen keys s choice) (horder : order.Perm choice) : Chosen keys s order where
  members c hc := h.members c (horder.mem_iff.1 hc)
  publicKeys c hc := h.publicKeys c (horder.mem_iff.1 hc)
  distinct := (horder.map _).nodup_iff.2 h.distinct
  length := horder.length_eq.trans h.length

/-- Chosen signers have names of their own. -/
theorem Chosen.ids_nodup {choice : List (SignerEntry × keys.PrivateKey)}
    (hsigners : CanonicalSigners s.signerSet) (h : Chosen keys s choice) :
    ((choice.map (·.1)).map (·.signerId)).Nodup := by
  refine h.distinct.map_on fun x hx y hy hxy => ?_
  obtain ⟨c, hc, rfl⟩ := List.mem_map.1 hx
  obtain ⟨d, hd, rfl⟩ := List.mem_map.1 hy
  exact List.inj_on_of_nodup_map hsigners.ids_nodup (h.members c hc) (h.members d hd) hxy

/-- Proofs are under the names of those who made them. -/
theorem signerIds_of_proofs {proofs : List MultisignatureProof}
    {order : List (SignerEntry × keys.PrivateKey)}
    (h : proofs.map (·.proof) = order.map fun c => b.proofOf keys c.1 c.2) :
    proofs.map (·.signerId) = (order.map (·.1)).map (·.signerId) := by
  have hnames := congrArg (List.map Proof.signerId) h
  rw [List.map_map, List.map_map] at hnames
  refine List.map_injective_iff.2 (Option.some_injective _) ?_
  rw [List.map_map, List.map_map, List.map_map]
  exact hnames

/-- Signers who get a replacement accepted all stay, and they are enough for its threshold. -/
theorem Chosen.realizes_inv (hrt : rt.Canonical) (hsigners : CanonicalSigners s.signerSet)
    (hempty : b.proofs = []) (hfollows : b.Follows recordKey (some s) none)
    (hop : b.authorization.operation = .replaceSigners)
    (hed : Ed25519Correct rt keys b.signedUpdateBytes (s.signerSet ++ b.signerSet))
    {choice : List (SignerEntry × keys.PrivateKey)} (hchoice : Chosen keys s choice)
    (hrealizes : Realizes keys b recordKey s choice) :
    (∀ c ∈ choice, c.1 ∈ b.signerSet) ∧ 2 ≤ s.threshold := by
  obtain ⟨e, hrun, haccepted⟩ := hrealizes choice (List.Perm.refl _)
  simp only [signAndFinalize, bind_eq_ok] at hrun
  obtain ⟨proofs, hsigned, merged, hmerge, hfinal⟩ := hrun
  obtain ⟨-, hmerged⟩ := mergeProofs_eq_ok.1 hmerge
  obtain ⟨hperm, hfollows', hop', hed'⟩ := replacement_merged hempty hfollows hop hed hmerged
  obtain ⟨hstay, -⟩ :=
    (finalized_accepted_iff hrt hsigners hfollows' hop' hed' hfinal).1 haccepted
  rw [MultisignatureBundle.signerSet_congr hmerged.signedUpdateBytes] at hstay
  obtain ⟨hlength, hnames⟩ := signed_inv hsigned
  constructor
  · intro c hc
    obtain ⟨p, hp, entry, hmem, hkey, hid⟩ := hnames c.2 (List.mem_map_of_mem hc)
    obtain ⟨entry', hold, hnew, hid'⟩ := hstay p (hperm.mem_iff.2 hp)
    -- the name of the proof stands for one entry of the new set, the key for one of the old
    have hsame : entry' = entry := List.inj_on_of_nodup_map b.canonical.signers.ids_nodup hnew
      hmem (hid'.trans hid)
    rw [hsame] at hold
    have hchosen : c.1 = entry := List.inj_on_of_nodup_map hsigners.keys_nodup
      (hchoice.members c hc) hold ((hchoice.publicKeys c hc).symm.trans hkey.symm)
    rw [hchosen]
    exact hmem
  · obtain ⟨-, -, hquorum⟩ := (finalized_iff_quorum hop').1 hfinal
    have henough := (thresholdProofs_wireProofs.1 hquorum).1
    rw [hperm.length_eq, hlength, List.length_map, hchoice.length, hfollows'.threshold hop']
      at henough
    exact henough

/-- Chosen signers who all stay get a replacement accepted, in whatever order they sign. -/
theorem Chosen.realizes (hrt : rt.Canonical) (hsigners : CanonicalSigners s.signerSet)
    (hempty : b.proofs = []) (hfollows : b.Follows recordKey (some s) none)
    (hop : b.authorization.operation = .replaceSigners)
    (hed : Ed25519Correct rt keys b.signedUpdateBytes (s.signerSet ++ b.signerSet))
    {choice : List (SignerEntry × keys.PrivateKey)} (hchoice : Chosen keys s choice)
    (hencodes : Encodes keys b choice) (hstay : ∀ c ∈ choice, c.1 ∈ b.signerSet)
    (htwo : 2 ≤ s.threshold) : Realizes keys b recordKey s choice := by
  intro order horder
  have hmembers : ∀ c ∈ order, c.1 ∈ b.signerSet := fun c hc => hstay c (horder.mem_iff.1 hc)
  have hchosen : Chosen keys s order := hchoice.of_perm horder
  obtain ⟨proofs, hsigned, hvalid, hproofs⟩ := exists_signed hed hmembers hchosen.publicKeys
  have hids := signerIds_of_proofs hproofs
  have hnodup : (proofs.map (·.signerId)).Nodup := by
    rw [hids]
    exact hchosen.ids_nodup hsigners
  obtain ⟨merged, hmerge⟩ := exists_merged (b := b) ⟨hnodup, by simp [hempty], hvalid⟩
  obtain ⟨-, hmerged⟩ := mergeProofs_eq_ok.1 hmerge
  obtain ⟨hperm, hfollows', hop', hed'⟩ := replacement_merged hempty hfollows hop hed hmerged
  have hbytes := hmerged.signedUpdateBytes
  have hvalid' : ∀ p ∈ merged.proofs, ValidProof merged p :=
    fun p hp => (hvalid p (hperm.mem_iff.1 hp)).congr hbytes
  have hnodup' : (merged.proofs.map (·.signerId)).Nodup := (hperm.map _).nodup_iff.2 hnodup
  have hlength : merged.proofs.length = s.threshold := by
    rw [hperm.length_eq, ← hchosen.length]
    simpa using congrArg List.length hids
  -- the merged bundle is written, finalized and accepted
  have hdumps : (rt.dumps (MultisignatureEnvelope.toValue
      ⟨1, merged.signedUpdateBytes, merged.wireProofs⟩)).isSome = true := by
    rw [hbytes]
    refine hencodes _ ((hperm.map _).trans ?_)
    rw [hproofs]
    exact horder.map _
  obtain ⟨e, hcbor⟩ := MultisignatureBundle.toCbor_of_valid hvalid' hnodup' hdumps
  have hfinal : finalizeBundle merged = .ok e := by
    refine (finalized_iff_quorum hop').2 ⟨hcbor, fun p hp => (hvalid' p hp).bound, ?_⟩
    rw [thresholdProofs_wireProofs, hfollows'.threshold hop', hlength]
    exact ⟨htwo, hnodup', fun p hp => (hvalid' p hp).valid⟩
  refine ⟨e, ?_, ?_⟩
  · simp only [signAndFinalize, hsigned, ok_bind, hmerge, hfinal]
  · rw [finalized_accepted_iff hrt hsigners hfollows' hop' hed' hfinal]
    refine ⟨fun p hp => ?_, hlength.symm.le⟩
    have hid : p.signerId ∈ (order.map (·.1)).map (·.signerId) := by
      rw [← hids]
      exact List.mem_map_of_mem (hperm.mem_iff.1 hp)
    obtain ⟨entry, hentry, hid⟩ := List.mem_map.1 hid
    obtain ⟨c, hc, rfl⟩ := List.mem_map.1 hentry
    rw [MultisignatureBundle.signerSet_congr hbytes]
    exact ⟨c.1, hchosen.members c hc, hmembers c hc, hid⟩

/-- **Completeness.** Chosen signers get a replacement accepted exactly when all of them stay, and
they are enough for the threshold that it installs. -/
theorem realizes_iff (hrt : rt.Canonical) (hsigners : CanonicalSigners s.signerSet)
    (hempty : b.proofs = []) (hfollows : b.Follows recordKey (some s) none)
    (hop : b.authorization.operation = .replaceSigners)
    (hed : Ed25519Correct rt keys b.signedUpdateBytes (s.signerSet ++ b.signerSet))
    {choice : List (SignerEntry × keys.PrivateKey)} (hchoice : Chosen keys s choice)
    (hencodes : Encodes keys b choice) :
    Realizes keys b recordKey s choice ↔ (∀ c ∈ choice, c.1 ∈ b.signerSet) ∧ 2 ≤ s.threshold := by
  constructor
  · exact hchoice.realizes_inv hrt hsigners hempty hfollows hop hed
  · rintro ⟨hstay, htwo⟩
    exact hchoice.realizes hrt hsigners hempty hfollows hop hed hencodes hstay htwo

/-- A replacement of three signers lets one of them go, so not every choice of signers gets it
accepted. -/
theorem exists_leaving (hsigners : CanonicalSigners s.signerSet) (hthree : s.signerSet.length = 3)
    (hfollows : b.Follows recordKey (some s) none)
    (hop : b.authorization.operation = .replaceSigners) :
    ∃ entry ∈ s.signerSet, entry ∉ b.signerSet := by
  by_contra hnone
  push Not at hnone
  cases hfollows.rules with
  | ordinaryUpdate _ operation => cases operation.symm.trans hop
  | replaceSigners _ _ _ _ size signerSet =>
    have hnodup : s.signerSet.Nodup := List.Nodup.of_map _ hsigners.ids_nodup
    have hlength : b.signerSet.length ≤ s.signerSet.length := by
      rw [hthree]
      exact size.le
    have hperm : s.signerSet.Perm b.signerSet := (hnodup.subperm hnone).perm_of_length_le hlength
    have hdistinct : s.signerSet.Pairwise fun a b => signerSortKey a ≠ signerSortKey b := by
      have hids := hsigners.ids_nodup
      rw [List.Nodup, List.pairwise_map] at hids
      exact hids.imp fun h heq => h (DistinctReading.utf8_injective heq)
    have hsorted := DistinctReading.sortedBy_congr hperm hdistinct
    have hold : sortedBy signerSortKey s.signerSet = s.signerSet :=
      List.Pairwise.insertionSort_eq hsigners.ordered
    have hnew : sortedBy signerSortKey b.signerSet = b.signerSet :=
      List.Pairwise.insertionSort_eq b.canonical.signers.ordered
    exact signerSet (hnew.symm.trans (hsorted.symm.trans hold))

/-- **Replacing signers with a bundle.** From the draft of a replacement, chosen current signers get
it accepted exactly when all of them stay and they are at least two; and what is finalized for it is
accepted exactly when its proofs are of signers that stay, as many as the current threshold says. -/
theorem replacement_realized_iff (hrt : rt.Canonical) {u : MultisignatureUpdate}
    (hs : s.Reads rt u) {a : DraftArguments} (hdraft : draftBundle rt a = .ok b)
    (hfollows : b.Follows recordKey (some s) none)
    (hop : b.authorization.operation = .replaceSigners)
    (hed : Ed25519Correct rt keys b.signedUpdateBytes (s.signerSet ++ b.signerSet)) :
    (∀ choice, Chosen keys s choice → Encodes keys b choice →
      (Realizes keys b recordKey s choice ↔
        (∀ c ∈ choice, c.1 ∈ b.signerSet) ∧ 2 ≤ s.threshold)) ∧
    ∀ (b' : MultisignatureBundle rt) (e : Bytes), b'.signedUpdateBytes = b.signedUpdateBytes →
      finalizeBundle b' = .ok e →
        ((∃ s', validateMultisignatureUpdate rt recordKey e (some s) none = .ok s') ↔
          (∀ p ∈ b'.proofs, ∃ entry ∈ s.signerSet, entry ∈ b.signerSet ∧
            entry.signerId = p.signerId) ∧ s.threshold ≤ b'.proofs.length) := by
  have hempty : b.proofs = [] := draftBundle_proofs hdraft
  constructor
  · intro choice hchoice hencodes
    exact realizes_iff hrt hs.canonical hempty hfollows hop hed hchoice hencodes
  · intro b' e hbytes hfinal
    have hset := MultisignatureBundle.signerSet_congr hbytes
    have hop' : b'.authorization.operation = .replaceSigners := by
      rw [MultisignatureBundle.authorization_congr hbytes]
      exact hop
    rw [← hset]
    rw [← hbytes, ← hset] at hed
    exact finalized_accepted_iff hrt hs.canonical (hfollows.congr hbytes) hop' hed hfinal

end Replacement

namespace Sample

/-- The private keys of `a` and `b`. -/
def keysOfAB : KeyStore where
  PrivateKey := Bool
  load _ := throw ⟨.external, ""⟩
  publicKey sk := publicKey (if sk then 'b' else 'a')
  sign sk digest := signatureBy (if sk then 'b' else 'a') digest

/-- `a` and `b`, with their private keys. -/
def choiceAB : List (SignerEntry × keysOfAB.PrivateKey) :=
  [(⟨['a'], publicKey 'a'⟩, false), (⟨['b'], publicKey 'b'⟩, true)]

/-- Their proofs of a bundle. -/
def proofsAB (b : MultisignatureBundle runtime) : List Proof :=
  choiceAB.map fun c => b.proofOf keysOfAB c.1 c.2

theorem chosenAB : Chosen keysOfAB upgradedState choiceAB := by
  rw [upgradedState_fields]
  constructor <;> decide +kernel

theorem upgradedState_reads : ∃ u, upgradedState.Reads runtime u := by
  obtain ⟨p, history, hp, -, -, hs⟩ := validateMultisignatureUpdate_eq_ok.1 upgradedState_eq
  exact ⟨_, hp.state hs⟩

/-- The draft of a replacement of the signers `a`, `b`, `c`. -/
def replacementDraft (names : List Char) : DraftArguments :=
  { recordKind := natValue RecordKind.identity.code
    recordFields := identityFields 'a'
    payload := []
    seq := natValue 3
    signerSet := (signers names).map SignerEntry.toValue
    epoch := natValue 2
    predecessorStateHash := .atom (.bytes upgradeSignatures.digestBytes)
    operation := natValue Operation.replaceSigners.code }

/-- What is assumed of such a draft. -/
def replaces (b : MultisignatureBundle runtime) : Bool :=
  b.recordKind = .identity ∧ b.authorization.operation = .replaceSigners ∧
    upgradedState.epoch < b.authorization.epoch ∧ b.authorization.threshold = 2 ∧
    b.authorization.signerSet.length = 3 ∧ b.authorization.signerSet ≠ upgradedState.signerSet ∧
    ownerPublicKeyField .identity b.signedUpdate.recordFields = .ok upgradedState.ownerPublicKey ∧
    upgradedState.seq < b.signedUpdate.seq ∧
    b.authorization.predecessorStateHash = upgradedState.stateHash ∧
    ((·.1) <$> extractIdentityAndKeys runtime b.signedUpdate.recordFields) = .ok identityKey ∧
    ∀ sk ∈ [false, true], verifyEd25519Signature runtime (keysOfAB.publicKey sk)
      b.signedUpdateBytes (makeSignedUpdateSignature runtime keysOfAB b.signedUpdateBytes sk) =
        .ok true ∧
      (makeSignedUpdateSignature runtime keysOfAB b.signedUpdateBytes sk).length = 64

theorem follows_of_replaces {b : MultisignatureBundle runtime} (h : replaces b = true) :
    b.Follows identityKey (some upgradedState) none := by
  simp only [replaces, decide_eq_true_eq] at h
  obtain ⟨hkind, hop, hepoch, hthreshold, hsize, hset, howner, hseq, hpredecessor, hkey, -⟩ := h
  obtain ⟨⟨key, owner⟩, hextract, hidentity⟩ := map_eq_ok.1 hkey
  cases hidentity
  have hstate : upgradedState.recordKind = .identity ∧ upgradedState.recordKey = identityKey := by
    rw [upgradedState_fields]
    exact ⟨rfl, rfl⟩
  have hcommon : IsCommonTransition runtime identityKey (b.candidate identityKey) upgradedState :=
    { lookupKey := rfl
      recordKey := hstate.2
      recordKind := hkind.trans hstate.1.symm
      owner := hstate.1 ▸ howner
      seq := hseq
      predecessor := hpredecessor
      payloads := fun hprovider => by cases hstate.1.symm.trans hprovider }
  refine ⟨?_, .replaceSigners hcommon hop hepoch hthreshold hsize hset⟩
  rw [MultisignatureBundle.DerivesKey, hkind]
  exact ⟨owner, hextract⟩

theorem correct_of_replaces {b : MultisignatureBundle runtime} (h : replaces b = true)
    (signers : List SignerEntry) :
    Ed25519Correct runtime keysOfAB b.signedUpdateBytes signers := by
  simp only [replaces, decide_eq_true_eq] at h
  obtain ⟨-, -, -, -, -, -, -, -, -, -, hsigns⟩ := h
  have hall (sk : Bool) : sk ∈ [false, true] := by cases sk <;> decide
  refine ⟨fun sk => (hsigns sk (hall sk)).1, fun sk => (hsigns sk (hall sk)).2, ?_⟩
  intro a _ b _ signature ha hb
  exact signer_unique (Except.ok.inj ha) (Except.ok.inj hb)

end Sample

/-- The replacement of `c` by `d`, signed by `a` and `b`, which stay. -/
theorem replacementByStayingSigners : ∃ b : MultisignatureBundle Sample.runtime,
    draftBundle Sample.runtime (Sample.replacementDraft ['a', 'b', 'd']) = .ok b ∧
      Realizes Sample.keysOfAB b Sample.identityKey Sample.upgradedState Sample.choiceAB := by
  have h : ((fun b => decide (Sample.replaces b ∧ (∀ c ∈ Sample.choiceAB, c.1 ∈ b.signerSet) ∧
      ∀ proofs ∈ (Sample.proofsAB b).permutations', (Sample.runtime.dumps
        (MultisignatureEnvelope.toValue ⟨1, b.signedUpdateBytes, proofs⟩)).isSome = true)) <$>
      draftBundle Sample.runtime (Sample.replacementDraft ['a', 'b', 'd'])) = .ok true := by
    unfold Sample.replaces
    rw [Sample.upgradedState_fields]
    decide +kernel
  obtain ⟨b, hdraft, hcheck⟩ := map_eq_ok.1 h
  obtain ⟨hreplaces, hstay, hdumps⟩ := of_decide_eq_true hcheck
  obtain ⟨u, hu⟩ := Sample.upgradedState_reads
  have hfollows := Sample.follows_of_replaces hreplaces
  have hop : b.authorization.operation = .replaceSigners := by
    simp only [Sample.replaces, decide_eq_true_eq] at hreplaces
    exact hreplaces.2.1
  have hencodes : Encodes Sample.keysOfAB b Sample.choiceAB :=
    fun proofs hproofs => hdumps proofs (List.mem_permutations'.2 hproofs)
  have htwo : 2 ≤ Sample.upgradedState.threshold := by
    rw [Sample.upgradedState_fields]
    exact le_rfl
  exact ⟨b, hdraft, ((replacement_realized_iff Sample.runtime_canonical hu hdraft hfollows hop
    (Sample.correct_of_replaces hreplaces _)).1 _ Sample.chosenAB hencodes).2 ⟨hstay, htwo⟩⟩

/-- **The workflow misses the authorized envelopes.** For the replacement of `a`, `b` and `c` by
`c`, `d` and `e`, the current signers `a` and `b` cannot sign; and `d` and `e`, who sign and
finalize, do not get it accepted. -/
theorem replacement_unrealized : ∃ b : MultisignatureBundle Sample.runtime,
    draftBundle Sample.runtime (Sample.replacementDraft ['c', 'd', 'e']) = .ok b ∧
      b.authorization.operation = .replaceSigners ∧
      b.Follows Sample.identityKey (some Sample.upgradedState) none ∧
      Ed25519Correct Sample.runtime Sample.keysOfAB b.signedUpdateBytes
        (Sample.upgradedState.signerSet ++ b.signerSet) ∧
      Chosen Sample.keysOfAB Sample.upgradedState Sample.choiceAB ∧
      ¬ Realizes Sample.keysOfAB b Sample.identityKey Sample.upgradedState Sample.choiceAB ∧
      ∃ (b' : MultisignatureBundle Sample.runtime) (e : Bytes),
        b'.signedUpdateBytes = b.signedUpdateBytes ∧ finalizeBundle b' = .ok e ∧
        ∀ s', validateMultisignatureUpdate Sample.runtime Sample.identityKey e
          (some Sample.upgradedState) none ≠ .ok s' := by
  have h : ((fun r : MultisignatureBundle Sample.runtime × MultisignatureBundle Sample.runtime =>
      decide (Sample.replaces r.1 ∧
        (signAndFinalize Sample.keysOfAB r.1 (Sample.choiceAB.map (·.2))).isOk = false ∧
        r.2.signedUpdateBytes = r.1.signedUpdateBytes ∧
        finalizeBundle r.2 = .ok Sample.newReplacement)) <$> (do
      let b ← draftBundle Sample.runtime (Sample.replacementDraft ['c', 'd', 'e'])
      let b' ← MultisignatureBundle.fromCbor Sample.runtime Sample.newReplacement
      return (b, b'))) = .ok true := by
    unfold Sample.replaces
    rw [Sample.upgradedState_fields]
    decide +kernel
  obtain ⟨⟨b, b'⟩, hrun, hcheck⟩ := map_eq_ok.1 h
  obtain ⟨hreplaces, hraises, hbytes, hfinal⟩ := of_decide_eq_true hcheck
  simp only [bind_eq_ok, pure_eq_ok, Prod.mk.injEq] at hrun
  obtain ⟨b, hdraft, b', -, rfl, rfl⟩ := hrun
  have hrefused : (validateMultisignatureUpdate Sample.runtime Sample.identityKey
      Sample.newReplacement (some Sample.upgradedState) none).isOk = false := by
    rw [Sample.upgradedState_fields]
    decide +kernel
  have hop : b.authorization.operation = .replaceSigners := by
    simp only [Sample.replaces, decide_eq_true_eq] at hreplaces
    exact hreplaces.2.1
  refine ⟨b, hdraft, hop, Sample.follows_of_replaces hreplaces,
    Sample.correct_of_replaces hreplaces _, Sample.chosenAB, ?_, b', _, hbytes, hfinal, ?_⟩
  · intro hrealizes
    obtain ⟨e, he, -⟩ := hrealizes Sample.choiceAB (List.Perm.refl _)
    rw [he] at hraises
    cases hraises
  · intro s' hs'
    rw [hs'] at hrefused
    cases hrefused

end DecentRegistry
