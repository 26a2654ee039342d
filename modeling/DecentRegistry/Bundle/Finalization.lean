import DecentRegistry.Bundle.Workflow
import DecentRegistry.Provider.Readback
import DecentRegistry.Provider.Withdrawal

/-!
# Finalization and acceptance

A bundle and the Registry judge the proofs of an update in two places. Where the update follows the
rules of its operation in all but the proofs (`FieldRules`), its signer set is that of the
predecessor, or there is none, and the predecessor is not a withdrawn Provider, the two agree:
`finalize_bundle` returns the envelope that the Registry accepts (`finalizeBundle_iff_accepted`).
One difference is left. The bundle also looks at the SignedUpdate that a proof is bound to, which
the wire envelope does not carry.
-/

namespace DecentRegistry

open Fallible PyValue

variable {rt : Runtime}

/-! ## Rules on the fields -/

/-- The rules of the operations of a bundle, less those on proofs and withdrawn predecessors: from
nothing, from a multisignature state, or from a legacy envelope. -/
inductive FieldRules (rt : Runtime) (recordKey : Bytes) (p : Candidate) :
    Option MultisignatureState → Option Bytes → Prop
  | genesis (operation : p.authorization.operation = .genesis)
      (epoch : p.authorization.epoch = 1)
      (predecessor : p.authorization.predecessorStateHash = List.replicate 32 0)
      (lookupKey : p.derivedRecordKey = recordKey) (threshold : p.authorization.threshold = 2)
      (size : p.authorization.signerSet.length = 3) : FieldRules rt recordKey p none none
  | ordinaryUpdate {s : MultisignatureState} (common : IsCommonTransition rt recordKey p s)
      (operation : p.authorization.operation = .ordinaryUpdate)
      (epoch : p.authorization.epoch = s.epoch)
      (threshold : p.authorization.threshold = s.threshold)
      (signerSet : p.authorization.signerSet = s.signerSet) :
        FieldRules rt recordKey p (some s) none
  | replaceSigners {s : MultisignatureState} (common : IsCommonTransition rt recordKey p s)
      (operation : p.authorization.operation = .replaceSigners)
      (epoch : s.epoch < p.authorization.epoch) (threshold : p.authorization.threshold = 2)
      (size : p.authorization.signerSet.length = 3)
      (signerSet : p.authorization.signerSet ≠ s.signerSet) :
        FieldRules rt recordKey p (some s) none
  | upgrade {anchor : Bytes} {legacy : LegacyState} (anchored : legacy.Reads rt recordKey anchor)
      (operation : p.authorization.operation = .upgrade)
      (lookupKey : p.derivedRecordKey = recordKey)
      (recordKind : p.authorization.recordKind = legacy.recordKind) (seq : legacy.seq < p.seq)
      (epoch : p.authorization.epoch = 1)
      (predecessor : p.authorization.predecessorStateHash = rt.sha256 legacy.signedUpdateBytes)
      (threshold : p.authorization.threshold = 2)
      (size : p.authorization.signerSet.length = 3)
      (owner : SameOwnerField legacy.recordKind p.recordFields legacy.recordFields) :
      FieldRules rt recordKey p none (some anchor)

/-- An upgrade keeps the owner. -/
theorem SameOwnerField.ownerPublicKey {recordKey anchor : Bytes} {legacy : LegacyState}
    {fields payload : Dict} (h : SameOwnerField legacy.recordKind fields legacy.recordFields)
    (anchored : legacy.Reads rt recordKey anchor)
    (binding : RecordBinding fields payload legacy.recordKind) :
    ownerPublicKeyField legacy.recordKind fields = .ok legacy.ownerPublicKey := by
  unfold SameOwnerField at h
  cases hkind : legacy.recordKind with
  | identity =>
    obtain ⟨_, -, hlegacy, -⟩ := anchored.identity hkind
    rw [hkind] at h binding
    obtain ⟨-, -, _, owner, -, howner, -⟩ := binding
    simp only [if_true, howner, hlegacy, Option.bind_some, Value.asBytes?, Option.some.injEq] at h
    simp only [ownerPublicKeyField, getItem, howner, h]
    rfl
  | provider =>
    have hlegacy := anchored.provider_owner hkind
    rw [hkind] at h binding
    obtain ⟨-, ⟨owner, howner, -⟩, -⟩ := binding
    simp only [reduceCtorEq, if_false, howner, hlegacy, Option.bind_some, Value.asBytes?,
      Option.some.injEq] at h
    simp only [ownerPublicKeyField, getItem, howner, h]
    rfl

/-- A state whose payload is read is withdrawn exactly when the payload is. -/
theorem withdrawn_iff {p : Candidate} {s : MultisignatureState}
    {current candidate : ProviderPayload}
    (hkind : s.recordKind = .provider) (h : providerPayloads rt p s = .ok (current, candidate)) :
    s.Withdrawn rt ↔ current.isWithdrawn = true := by
  simp only [providerPayloads, bind_eq_ok, pure_eq_ok, Prod.mk.injEq] at h
  obtain ⟨u, hu, payload, hcurrent, _, -, hpayload, -⟩ := h
  rw [← hpayload]
  constructor
  · rintro ⟨-, u', tombstone, hu', htombstone⟩
    obtain rfl := Except.ok.inj (hu.symm.trans hu')
    obtain rfl := Except.ok.inj (hcurrent.symm.trans htombstone)
    rfl
  · intro hwithdrawn
    refine ⟨hkind, u, ?_⟩
    cases payload with
    | active _ => cases hwithdrawn
    | withdrawn tombstone => exact ⟨tombstone, hu, hcurrent⟩

/-- **Steps by the signers of the update itself.** A candidate that follows the rules is a step
exactly when its proofs suffice by its own signer set, and the state before it is not withdrawn. -/
theorem FieldRules.step_iff {recordKey e : Bytes} {p : Candidate}
    {current : Option MultisignatureState} {anchor : Option Bytes}
    (h : FieldRules rt recordKey p current anchor) (canonical : p.authorization.Canonical)
    (binding : RecordBinding p.recordFields p.payload p.authorization.recordKind)
    (hop : p.authorization.operation ≠ .replaceSigners) :
    (∃ history, IsStep rt recordKey e p current anchor history) ↔
      OwnProofs rt p ∧ ∀ s ∈ current, ¬ s.Withdrawn rt := by
  cases h with
  | genesis operation epoch predecessor lookupKey threshold size =>
    rw [OwnProofs, if_neg (by rw [operation]; decide)]
    constructor
    · rintro ⟨history, hstep⟩
      cases hstep with
      | genesis hg => exact ⟨hg.proofs, by simp⟩
    · rintro ⟨hproofs, -⟩
      exact ⟨_, .genesis ⟨operation, epoch, predecessor, lookupKey, threshold, size, hproofs⟩⟩
  | @ordinaryUpdate s common operation epoch threshold signerSet =>
    rw [OwnProofs, if_neg (by rw [operation]; decide), threshold, signerSet]
    simp only [Option.mem_def, Option.some.injEq, forall_eq']
    constructor
    · rintro ⟨history, hstep⟩
      cases hstep with
      | ordinaryUpdate hu =>
        refine ⟨hu.proofs, fun hwithdrawn => ?_⟩
        obtain ⟨current, candidate, hpayloads, hactive⟩ := hu.active hwithdrawn.1
        rw [withdrawn_iff hwithdrawn.1 hpayloads, hactive] at hwithdrawn
        cases hwithdrawn
      | replaceSigners hr => cases hr.operation.symm.trans operation
      | rotate hr =>
        obtain ⟨_, -, hrotation⟩ := hr.rotation
        cases hrotation.operation.symm.trans operation
    · rintro ⟨hproofs, hactive⟩
      refine ⟨_, .ordinaryUpdate { common with
        operation := operation
        active := fun hkind => ?_
        epoch := epoch
        threshold := threshold
        signerSet := signerSet
        proofs := hproofs }⟩
      obtain ⟨current, candidate, hpayloads, -⟩ := common.payloads hkind
      rw [withdrawn_iff hkind hpayloads, Bool.not_eq_true] at hactive
      exact ⟨current, candidate, hpayloads, hactive⟩
  | replaceSigners _ operation => exact absurd operation hop
  | @upgrade anchor legacy anchored operation lookupKey recordKind seq epoch
    predecessor threshold size
      owner =>
    rw [recordKind] at binding
    have howner : ownerPublicKeyField p.authorization.recordKind p.recordFields =
        .ok legacy.ownerPublicKey := by
      rw [recordKind]
      exact owner.ownerPublicKey anchored binding
    rw [OwnProofs, if_pos operation]
    constructor
    · rintro ⟨history, hstep⟩
      cases hstep with
      | upgrade anchored' hu =>
        obtain rfl := anchored.unique anchored'
        obtain ⟨signerId, signature, hproofs, hsigner, hvalid⟩ := hu.proof
        rw [signerIdForPublicKey_eq_ok canonical.signers] at hsigner
        exact ⟨⟨signerId, signature, _, hproofs, howner, hsigner, hvalid⟩, by simp⟩
      | rotateLegacy _ hr => cases hr.operation.symm.trans operation
    · rintro ⟨⟨signerId, signature, owner', hproofs, howner', hmem, hvalid⟩, -⟩
      obtain rfl := Except.ok.inj (howner.symm.trans howner')
      exact ⟨_, .upgrade anchored ⟨operation, lookupKey, recordKind, seq, epoch, predecessor,
        threshold, size, owner, signerId, signature, hproofs,
        (signerIdForPublicKey_eq_ok canonical.signers).2 hmem, hvalid⟩⟩

/-! ## Agreement -/

namespace MultisignatureBundle

/-- The bundle follows the rules of its operation in all but the proofs. -/
structure Follows (b : MultisignatureBundle rt) (recordKey : Bytes)
    (current : Option MultisignatureState) (anchor : Option Bytes) : Prop where
  key : b.DerivesKey recordKey
  rules : FieldRules rt recordKey (b.candidate recordKey) current anchor

/-- The Registry accepts the wire envelope of the bundle. -/
def Accepted (b : MultisignatureBundle rt) (recordKey : Bytes)
    (current : Option MultisignatureState) (anchor : Option Bytes) : Prop :=
  ∃ e s, b.toCbor = .ok e ∧ validateMultisignatureUpdate rt recordKey e current anchor = .ok s

/-- The operation of a bundle that follows the rules is not a rotation. -/
theorem Follows.not_rotation {b : MultisignatureBundle rt} {recordKey : Bytes}
    {current : Option MultisignatureState} {anchor : Option Bytes}
    (h : b.Follows recordKey current anchor) :
    b.authorization.operation ≠ .ownerKeyRotation := by
  intro hop
  cases h.rules with
  | genesis operation => cases operation.symm.trans hop
  | ordinaryUpdate _ operation => cases operation.symm.trans hop
  | replaceSigners _ operation => cases operation.symm.trans hop
  | upgrade _ operation => cases operation.symm.trans hop

end MultisignatureBundle

/-- **Finalization and acceptance agree**, for bundles whose proofs are bound to them, where the
state to be updated is not withdrawn; and what is finalized decodes to the bundle. -/
theorem finalizeBundle_iff_accepted (hrt : rt.Canonical) {b : MultisignatureBundle rt}
    {recordKey : Bytes} {current : Option MultisignatureState} {anchor : Option Bytes}
    (h : b.Follows recordKey current anchor) (hop : b.authorization.operation ≠ .replaceSigners)
    (hactive : ∀ s ∈ current, ¬ s.Withdrawn rt) :
    ((∃ e, finalizeBundle b = .ok e) ↔ b.Accepted recordKey current anchor ∧ b.Bound) ∧
    ∀ e, finalizeBundle b = .ok e →
      decodeMultisignatureEnvelope rt e = .ok ⟨1, b.signedUpdateBytes, b.wireProofs⟩ := by
  have hstep (e : Bytes) := h.rules.step_iff (e := e) b.canonical b.binding hop
  refine ⟨?_, fun e he => ?_⟩
  · constructor
    · rintro ⟨e, he⟩
      obtain ⟨hcbor, hbound, hown⟩ := (@finalizeBundle_eq_ok _ _ _ recordKey).1 he
      obtain ⟨s, hs⟩ := (MultisignatureBundle.accepted_iff hrt h.key h.not_rotation hcbor).2
        ((hstep e).2 ⟨hown, hactive⟩)
      exact ⟨⟨e, s, hcbor, hs⟩, hbound⟩
    · rintro ⟨⟨e, s, hcbor, hs⟩, hbound⟩
      obtain ⟨hown, -⟩ := (hstep e).1
        ((MultisignatureBundle.accepted_iff hrt h.key h.not_rotation hcbor).1 ⟨s, hs⟩)
      exact ⟨e, (@finalizeBundle_eq_ok _ _ _ recordKey).2 ⟨hcbor, hbound, hown⟩⟩
  · exact MultisignatureBundle.decode_toCbor hrt
      ((@finalizeBundle_eq_ok _ _ _ recordKey).1 he).1

namespace Sample

/-- What a computed check says of a bundle restored from an envelope. -/
theorem exists_bundle {e : Bytes} {P : MultisignatureBundle runtime → Bool}
    (h : (P <$> MultisignatureBundle.fromCbor runtime e) = .ok true) :
    ∃ b, MultisignatureBundle.fromCbor runtime e = .ok b ∧ P b = true := map_eq_ok.1 h

/-- The genesis of `alice` as the rules have it. -/
def followsGenesis (b : MultisignatureBundle runtime) : Bool :=
  b.recordKind = .identity ∧ b.authorization.operation = .genesis ∧ b.authorization.epoch = 1 ∧
    b.authorization.predecessorStateHash = List.replicate 32 0 ∧ b.authorization.threshold = 2 ∧
    b.authorization.signerSet.length = 3 ∧
    ((·.1) <$> extractIdentityAndKeys runtime b.signedUpdate.recordFields) = .ok identityKey

theorem follows_of_followsGenesis {b : MultisignatureBundle runtime} (h : followsGenesis b = true) :
    b.Follows identityKey none none := by
  simp only [followsGenesis, decide_eq_true_eq] at h
  obtain ⟨hkind, hop, hepoch, hpredecessor, hthreshold, hsize, hkey⟩ := h
  obtain ⟨⟨key, owner⟩, hextract, rfl⟩ := map_eq_ok.1 hkey
  refine ⟨?_, .genesis hop hepoch hpredecessor rfl hthreshold hsize⟩
  rw [MultisignatureBundle.DerivesKey, hkind]
  exact ⟨owner, hextract⟩

end Sample

/-- The genesis of `alice`, restored and finalized. -/
theorem identityGenesis_finalized :
    ∃ b, MultisignatureBundle.fromCbor Sample.runtime Sample.identityGenesis = .ok b ∧
      ∃ e, finalizeBundle b = .ok e := by
  obtain ⟨b, hb, hcheck⟩ := Sample.exists_bundle (e := Sample.identityGenesis)
    (P := fun b => Sample.followsGenesis b ∧ b.toCbor = .ok Sample.identityGenesis ∧
      b.proofs.all fun p => p.signedUpdateBytes = b.signedUpdateBytes) (by decide +kernel)
  obtain ⟨hfollows, hcbor, hbound⟩ := of_decide_eq_true hcheck
  have hfollows := Sample.follows_of_followsGenesis hfollows
  have hop : b.authorization.operation ≠ .replaceSigners := by
    cases hfollows.rules with
    | genesis operation =>
      rw [show b.authorization.operation = .genesis from operation]
      decide
  refine ⟨b, hb, ?_⟩
  exact (finalizeBundle_iff_accepted Sample.runtime_canonical hfollows hop (by simp)).1.2
    ⟨⟨_, _, hcbor, eq_ok_valueOf (by decide +kernel)⟩, fun p hp => by
      simpa using List.all_eq_true.1 hbound p hp⟩

namespace Sample

/-- The genesis, constructed directly from proofs that are bound to other bytes. -/
def unboundGenesis : Py (MultisignatureBundle runtime) := do
  let b ← MultisignatureBundle.fromCbor runtime identityGenesis
  MultisignatureBundle.make runtime b.signedUpdateBytes
    (b.proofs.map fun p => { p with signedUpdateBytes := [] })

theorem exists_unboundGenesis : ∃ b : MultisignatureBundle runtime,
    b.Follows identityKey none none ∧ b.authorization.operation = .genesis ∧
      b.toCbor = .ok identityGenesis ∧ (finalizeBundle b).isOk = false := by
  have h : ((fun b => decide (followsGenesis b ∧ b.toCbor = .ok identityGenesis ∧
      (finalizeBundle b).isOk = false)) <$> unboundGenesis) = .ok true := by decide +kernel
  obtain ⟨b, -, hcheck⟩ := map_eq_ok.1 h
  obtain ⟨hfollows, hcbor, hraises⟩ := of_decide_eq_true hcheck
  refine ⟨b, follows_of_followsGenesis hfollows, ?_, hcbor, hraises⟩
  simp only [followsGenesis, decide_eq_true_eq] at hfollows
  exact hfollows.2.1

end Sample

/-- **A bundle on which they differ.** The genesis of `alice`, constructed from proofs that are
bound to other bytes, is not finalized and its wire envelope is accepted. -/
theorem finalization_differs :
    ∃ b : MultisignatureBundle Sample.runtime, b.Follows Sample.identityKey none none ∧
      b.authorization.operation = .genesis ∧ b.Accepted Sample.identityKey none none ∧
      ∀ e, finalizeBundle b ≠ .ok e := by
  obtain ⟨b, hfollows, hop, hcbor, hraises⟩ := Sample.exists_unboundGenesis
  refine ⟨b, hfollows, hop, ⟨_, _, hcbor, eq_ok_valueOf (by decide +kernel)⟩, fun e he => ?_⟩
  rw [he] at hraises
  cases hraises

end DecentRegistry
