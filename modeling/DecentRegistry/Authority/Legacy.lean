import DecentRegistry.Authority.Steps

/-!
# What legacy validation accepts

The legacy entry points of the validator accept the envelopes that read as a `LegacyState` whose
sequence number and owner agree with the previous entry of the `SeqState`
(`validateSignedUpdateOverwrite_eq_ok`, `validateLegacyIdentity_eq_ok`). The reading that the
overwrite check uses and the one that `_decode_legacy_state` uses are the same
(`extractLegacyKeys_eq_ok`).
-/

namespace DecentRegistry

open Fallible PyValue

variable {rt : Runtime}

/-! ## Computations over a `SeqState` -/

namespace Checked

variable {α β : Type}

theorem result_lift_bind (x : Py α) (f : α → Checked β) (seqState : SeqState) :
    (lift x >>= f).result seqState = x >>= fun a => (f a).result seqState := by
  cases x <;> rfl

theorem result_get_bind (f : SeqState → Checked β) (seqState : SeqState) :
    (get >>= f).result seqState = (f seqState).result seqState := rfl

theorem result_bind_pure (x : Checked Unit) (a : α) (seqState : SeqState) :
    (x >>= fun _ => pure a).result seqState = (fun _ => a) <$> x.result seqState := by
  simp only [result, ExceptT.run_bind]
  rcases h : x.run seqState with ⟨_ | _, _⟩ <;> simp [Bind.bind, StateT.bind, h] <;> rfl

end Checked

/-- A sequence number and an owner that may follow the accepted ones. -/
def MayFollow (seq : ℕ) (ownerPublicKey : Bytes) (previous : Option SeqStateEntry) : Prop :=
  ∀ entry ∈ previous, entry.seq < seq ∧ ownerPublicKey = entry.ownerPublicKey

theorem enforceSeqAndOwnerBinding_eq_ok {recordKey ownerPublicKey : Bytes} {seq : ℕ} {b : Bool}
    {seqState : SeqState} {u : Unit} :
    (enforceSeqAndOwnerBinding recordKey seq ownerPublicKey b).result seqState = .ok u ↔
      MayFollow seq ownerPublicKey (seqState recordKey) := by
  unfold enforceSeqAndOwnerBinding
  rw [Checked.result_get_bind]
  cases hprev : seqState recordKey with
  | none => cases b <;> simp [MayFollow] <;> rfl
  | some entry =>
    cases b <;>
      simp only [Checked.result_lift_bind, bind_eq_ok, raiseIf_eq_ok, exists_const, not_le,
        not_not, MayFollow, Option.mem_def, Option.some.injEq, forall_eq']
    · exact ⟨fun h => ⟨h.1, h.2.1⟩, fun h => ⟨h.1, h.2, rfl⟩⟩
    · exact ⟨fun h => ⟨h.1, h.2.1⟩, fun h => ⟨h.1, h.2, rfl⟩⟩

theorem validateUpdate_eq_ok {extract : SignedUpdate → Py (Bytes × Bytes)}
    {recordKey signedUpdateBytes signature : Bytes} {b : Bool} {seqState : SeqState}
    {u : SignedUpdate} :
    (validateUpdate rt extract recordKey signedUpdateBytes signature b).result seqState = .ok u ↔
      decodeSignedUpdateStrict rt signedUpdateBytes = .ok u ∧
        ∃ owner, extract u = .ok (recordKey, owner) ∧
          verifyEd25519Signature rt owner signedUpdateBytes signature = .ok true ∧
          MayFollow u.seq owner (seqState recordKey) := by
  simp only [validateUpdate, Checked.result_lift_bind, Checked.result_bind_pure, bind_eq_ok,
    map_eq_ok, raiseIf_eq_ok, enforceSeqAndOwnerBinding_eq_ok, Prod.exists, not_not, exists_const]
  constructor
  · rintro ⟨u', hu, key, owner, hextract, rfl, valid, hvalid, hv, hfollow, rfl⟩
    obtain rfl : valid = true := by simpa using hv
    exact ⟨hu, owner, hextract, hvalid, hfollow⟩
  · rintro ⟨hu, owner, hextract, hvalid, hfollow⟩
    exact ⟨u, hu, recordKey, owner, hextract, rfl, true, hvalid, by simp, hfollow, rfl⟩

/-! ## The two readings of a legacy record -/

theorem extractIdentityAndKeys_eq_ok {fields : Dict} {key owner : Bytes} :
    extractIdentityAndKeys rt fields = .ok (key, owner) ↔
      ∃ ownerName, fields.get? 1 = some (.atom (.bytes ownerName)) ∧
        fields.get? 2 = some (.atom (.bytes owner)) ∧ rt.sha256 ownerName = key := by
  unfold extractIdentityAndKeys
  split
  · rename_i name owner' hname howner
    simp only [Option.bind_eq_some_iff, Value.asBytes?_eq_some] at hname howner
    obtain ⟨_, hname, rfl⟩ := hname
    obtain ⟨_, howner, rfl⟩ := howner
    simp [hname, howner, and_comm]
  · rename_i hnot
    simp only [throw_eq_ok_iff, false_iff, not_exists, not_and]
    intro name hname howner
    exact absurd howner fun howner => hnot name owner (by simp [hname]) (by simp [howner])

theorem extractIdentityAndKeys_isValueError {fields : Dict} {e : PyError}
    (h : extractIdentityAndKeys rt fields = .error e) : e.cls.isValueError = true := by
  unfold extractIdentityAndKeys at h
  split at h
  · cases h
  · cases h
    rfl

/-- Identity if the record fields read as one, else Provider. -/
theorem extractLegacyKeys_eq_ok {fields payload : Dict} {kind : RecordKind} {key owner : Bytes} :
    extractLegacyKeys rt fields payload = .ok (kind, key, owner) ↔
      match extractIdentityAndKeys rt fields with
      | .ok (key', owner') => kind = .identity ∧ key' = key ∧ owner' = owner
      | .error _ =>
        kind = .provider ∧ extractProviderAndKeys fields payload = .ok (key, owner) := by
  unfold extractLegacyKeys
  cases hidentity : extractIdentityAndKeys rt fields with
  | ok x =>
    obtain ⟨key', owner'⟩ := x
    simp only [pure_eq_ok, Prod.mk.injEq]
    exact ⟨fun h => ⟨h.1.symm, h.2⟩, fun h => ⟨h.1.symm, h.2⟩⟩
  | error e =>
    simp only [extractIdentityAndKeys_isValueError hidentity, if_true, bind_eq_ok, pure_eq_ok,
      Prod.exists, Prod.mk.injEq]
    constructor
    · rintro ⟨_, _, h, rfl, rfl, rfl⟩
      exact ⟨rfl, h⟩
    · rintro ⟨rfl, h⟩
      exact ⟨_, _, h, rfl, rfl, rfl⟩

theorem decodeSignedUpdateStrict_eq_ok {data : Bytes} {u : SignedUpdate} :
    decodeSignedUpdateStrict rt data = .ok u ↔
      decodeCanonicalSignedUpdate rt data = .ok u ∧ u.authorization = none := by
  simp only [decodeSignedUpdateStrict, bind_eq_ok, raiseIf_eq_ok, pure_eq_ok, exists_const,
    Bool.not_eq_true, Option.isSome_eq_false_iff, Option.isNone_iff_eq_none]
  constructor
  · rintro ⟨_, h, hnone, rfl⟩
    exact ⟨h, hnone⟩
  · rintro ⟨h, hnone⟩
    exact ⟨u, h, hnone, rfl⟩

/-- **Legacy overwrite validation.** The SignedUpdate is a legacy one on this record, signed by its
owner, and may follow the accepted entry. -/
theorem validateSignedUpdateOverwrite_eq_ok {recordKey signedUpdateBytes signature : Bytes}
    {b : Bool} {seqState : SeqState} {u : SignedUpdate} :
    (validateSignedUpdateOverwrite rt recordKey signedUpdateBytes signature b).result seqState =
        .ok u ↔
      decodeSignedUpdateStrict rt signedUpdateBytes = .ok u ∧
        ∃ kind owner, extractLegacyKeys rt u.recordFields u.payload = .ok (kind, recordKey, owner) ∧
          verifyEd25519Signature rt owner signedUpdateBytes signature = .ok true ∧
          MayFollow u.seq owner (seqState recordKey) := by
  simp only [validateSignedUpdateOverwrite, Checked.result_lift_bind, bind_eq_ok,
    extractLegacyKeys_eq_ok]
  constructor
  · rintro ⟨u', hu', h⟩
    cases hidentity : extractIdentityAndKeys rt u'.recordFields with
    | ok x =>
      simp only [hidentity, validateIdentityUpdate, validateUpdate_eq_ok] at h
      obtain ⟨hu, owner, hextract, hvalid, hfollow⟩ := h
      obtain rfl : u' = u := Except.ok.inj (hu'.symm.trans hu)
      exact ⟨hu, .identity, owner, by simp [hextract], hvalid, hfollow⟩
    | error e =>
      simp only [hidentity, validateProviderUpdate, validateUpdate_eq_ok] at h
      obtain ⟨hu, owner, hextract, hvalid, hfollow⟩ := h
      obtain rfl : u' = u := Except.ok.inj (hu'.symm.trans hu)
      exact ⟨hu, .provider, owner, by simp [hidentity, hextract], hvalid, hfollow⟩
  · rintro ⟨hu, kind, owner, hkeys, hvalid, hfollow⟩
    refine ⟨u, hu, ?_⟩
    cases hidentity : extractIdentityAndKeys rt u.recordFields with
    | ok x =>
      simp only [hidentity] at hkeys
      obtain ⟨-, hkey, howner⟩ := hkeys
      simp only [validateIdentityUpdate, validateUpdate_eq_ok]
      exact ⟨hu, owner, by rw [hidentity, ← hkey, ← howner], hvalid, hfollow⟩
    | error e =>
      simp only [hidentity] at hkeys
      simp only [validateProviderUpdate, validateUpdate_eq_ok]
      exact ⟨hu, owner, hkeys.2, hvalid, hfollow⟩

/-- What passes the overwrite check reads as a legacy record. -/
theorem LegacyState.Reads.of_overwrite {recordKey e signedUpdateBytes signature : Bytes} {b : Bool}
    {seqState : SeqState} {u : SignedUpdate}
    (hsigned : decodeSignedEnvelope rt e = .ok (signedUpdateBytes, signature))
    (h : (validateSignedUpdateOverwrite rt recordKey signedUpdateBytes signature b).result
      seqState =
      .ok u) :
    ∃ kind owner, LegacyState.Reads rt
      ⟨signedUpdateBytes, u.recordFields, u.payload, u.seq, kind, owner⟩ recordKey e := by
  obtain ⟨hstrict, kind, owner, hkeys, hvalid, -⟩ := validateSignedUpdateOverwrite_eq_ok.1 h
  obtain ⟨hu, hnone⟩ := decodeSignedUpdateStrict_eq_ok.1 hstrict
  exact ⟨kind, owner, ⟨signature, hsigned, hvalid⟩, by rw [hu, ← hnone], hkeys⟩

/-! ## Legacy Identity records -/

/-- The fields of a legacy Identity. -/
theorem LegacyState.Reads.identity {legacy : LegacyState} {recordKey e : Bytes}
    (h : legacy.Reads rt recordKey e) (hkind : legacy.recordKind = .identity) :
    ∃ ownerName, legacy.recordFields.get? 1 = some (.atom (.bytes ownerName)) ∧
      legacy.recordFields.get? 2 = some (.atom (.bytes legacy.ownerPublicKey)) ∧
      rt.sha256 ownerName = recordKey := by
  have hkeys := extractLegacyKeys_eq_ok.1 h.keys
  cases hidentity : extractIdentityAndKeys rt legacy.recordFields with
  | ok x =>
    simp only [hidentity] at hkeys
    obtain ⟨-, hkey, howner⟩ := hkeys
    refine extractIdentityAndKeys_eq_ok.1 ?_
    rw [hidentity, ← hkey, ← howner]
  | error e =>
    simp only [hidentity, hkind] at hkeys
    cases hkeys.1

theorem LegacyState.Reads.unique {legacy legacy' : LegacyState} {recordKey e : Bytes}
    (h : legacy.Reads rt recordKey e) (h' : legacy'.Reads rt recordKey e) : legacy = legacy' := by
  rw [← decodeLegacyState_eq_ok] at h h'
  exact Except.ok.inj (h.symm.trans h')

/-- **A legacy Identity is accepted exactly when it reads as one that may follow the accepted
entry.** -/
theorem validateLegacyIdentity_eq_ok {recordKey e : Bytes} {seqState : SeqState}
    {r : IdentityOverwriteResult} :
    validateLegacyIdentity rt recordKey e seqState = .ok r ↔
      ∃ (legacy : LegacyState) (ownerName : Bytes), legacy.Reads rt recordKey e ∧
        legacy.recordKind = .identity ∧
        legacy.recordFields.get? 1 = some (.atom (.bytes ownerName)) ∧
        MayFollow legacy.seq legacy.ownerPublicKey (seqState recordKey) ∧
        r = { recordKey, ownerPublicKey := legacy.ownerPublicKey, ownerName, seq := legacy.seq,
              authorization := none, state := none } := by
  simp only [validateLegacyIdentity, bind_eq_ok, orRaise_eq_ok, pure_eq_ok, Prod.exists,
    validateSignedUpdateOverwrite_eq_ok, decodeSignedUpdateStrict_eq_ok, Option.bind_eq_some_iff,
    Value.asBytes?_eq_some, exists_eq_right]
  constructor
  · rintro ⟨bytes, signature, hsigned, u, ⟨⟨hu, hnone⟩, kind, owner, hkeys, hvalid, hfollow⟩, u',
      hu', name, hname, owner', howner, rfl⟩
    obtain rfl : u = u' := Except.ok.inj (hu.symm.trans hu')
    have hidentity : extractIdentityAndKeys rt u.recordFields = .ok (rt.sha256 name, owner') :=
      extractIdentityAndKeys_eq_ok.2 ⟨name, hname, howner, rfl⟩
    obtain ⟨fields, payload, seq, auth⟩ := u
    obtain rfl : auth = none := hnone
    have hkeys' := extractLegacyKeys_eq_ok.1 hkeys
    simp only [hidentity] at hkeys'
    obtain ⟨rfl, -, rfl⟩ := hkeys'
    exact ⟨⟨bytes, fields, payload, seq, .identity, owner'⟩, name,
      ⟨⟨signature, hsigned, hvalid⟩, hu, hkeys⟩, rfl, hname, hfollow, rfl⟩
  · rintro ⟨legacy, name, hreads, hkind, hname, hfollow, rfl⟩
    obtain ⟨name', hname', howner, -⟩ := hreads.identity hkind
    obtain ⟨signature, hsigned, hvalid⟩ := hreads.signed
    exact ⟨_, signature, hsigned, _, ⟨⟨hreads.update, rfl⟩, _, _, hreads.keys, hvalid, hfollow⟩, _,
      hreads.update, name, hname, _, howner, rfl⟩

end DecentRegistry
