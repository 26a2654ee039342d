import DecentRegistry.Model.RecordValidator
import DecentRegistry.Sample.Records
import DecentRegistry.Wire.Recasing
import DecentRegistry.Wire.UniqueEncoding

/-!
# Recased sample withdrawals

The sample withdrawals of the Provider Record in upper case, signed anew: each is a recasing of the
withdrawal in lower case (`recased_legacyWithdrawal`, `recased_providerWithdrawal`).
-/

namespace DecentRegistry.Sample

open Fallible PyValue Sha256

/-- The Object Hash in upper case. -/
def capitals : Text := (toHex providerKey).map Char.toUpper

theorem sameLetters_capitals : SameLetters (toHex providerKey) capitals := by
  unfold SameLetters
  decide +kernel

theorem loadsDict_cbor {l : List (ℕ × Value)} (hl : InOrder (.dict (natEntries l)))
    (h : cbor (.dict (natEntries l)) ≠ []) :
    LoadsDict runtime (cbor (.dict (natEntries l))) (natEntries l) := by
  refine ⟨loads_cbor hl h, ?_⟩
  change Cbor.encode _ = _
  unfold cbor at h ⊢
  cases hb : Cbor.encode (.dict (natEntries l)) with
  | none =>
    rw [hb] at h
    exact absurd rfl h
  | some b => rfl

/-- The SignedUpdate of a withdrawal of the Provider Record, with the Object Hash as spelled. -/
def withdrawalEntries (hash : Text) (authorization : Option Authorization) : List (ℕ × Value) :=
  [(1, .dict (natEntries [(1, .atom (.bytes (publicKey 'a')))])),
    (2, .dict (natEntries [(1, .atom (.text (text "sha256"))), (2, natValue 2),
      (3, .atom (.text hash)), (4, .atom (.text (text "withdrawn")))])),
    (3, natValue 2)] ++ authorization.toList.map fun a => (4, a.toValue)

def withdrawalUpdate (hash : Text) (authorization : Option Authorization) : Bytes :=
  cbor (.dict (natEntries (withdrawalEntries hash authorization)))

theorem inOrder_withdrawalEntries (hash : Text) (authorization : Option Authorization) :
    InOrder (.dict (natEntries (withdrawalEntries hash authorization))) := by
  have hfields : InOrder (.dict (natEntries [(1, .atom (.bytes (publicKey 'a')))])) :=
    .natEntries (by simp) (by simpa using .atom (.bytes _))
  have hpayload : InOrder (.dict (natEntries [(1, .atom (.text (text "sha256"))), (2, natValue 2),
      (3, .atom (.text hash)), (4, .atom (.text (text "withdrawn")))])) := by
    refine .natEntries (by simp) ?_
    simpa using ⟨.atom (.text _), inOrder_natValue 2, .atom (.text _), .atom (.text _)⟩
  cases authorization with
  | none =>
    refine .natEntries (by simp [withdrawalEntries]) ?_
    simpa [withdrawalEntries, or_imp, forall_and] using ⟨hfields, hpayload, inOrder_natValue 2⟩
  | some a =>
    refine .natEntries (by simp [withdrawalEntries]) ?_
    simpa [withdrawalEntries] using
      ⟨hfields, hpayload, inOrder_natValue 2, a.inOrder_toValue⟩

theorem recasedUpdate {authorization : Option Authorization}
    (h : withdrawalUpdate (toHex providerKey) authorization ≠ [])
    (h' : withdrawalUpdate capitals authorization ≠ []) :
    RecasedUpdate runtime (toHex providerKey) capitals
      (withdrawalUpdate (toHex providerKey) authorization)
      (withdrawalUpdate capitals authorization) := by
  refine ⟨sameLetters_capitals, _, _, loads_cbor (inOrder_withdrawalEntries _ _) h, rfl, rfl, ?_⟩
  cases authorization with
  | none => exact loadsDict_cbor (inOrder_withdrawalEntries _ _) h'
  | some a => exact loadsDict_cbor (inOrder_withdrawalEntries _ (some a)) h'

theorem resigned {u u' signature signature' : Bytes}
    (hlength : signature'.length = signature.length)
    (h : (['a', 'b', 'c', 'd', 'e'].all fun c =>
      !ed25519Verify (publicKey c) (sha256 u) signature ||
      ed25519Verify (publicKey c) (sha256 u') signature') = true) :
    Resigned runtime u u' signature signature' := by
  refine ⟨hlength, fun key hkey => ?_⟩
  have hvalid := Except.ok.inj hkey
  change ed25519Verify key (sha256 u) signature = true at hvalid
  obtain ⟨c, hc, rfl⟩ := exists_signer hvalid
  have hsigned := List.all_eq_true.1 h c hc
  rw [hvalid, Bool.not_true, Bool.false_or] at hsigned
  exact congrArg Except.ok hsigned

/-- The signature of a legacy envelope. -/
def signatureOf (s : Signatures) : Bytes := s.bySigner.head?.elim [] fun e => signatureBytes e.2

/-- **The legacy withdrawal, recased.** -/
theorem recased_legacyWithdrawal :
    Recased runtime (toHex providerKey) capitals legacyWithdrawal upperWithdrawal := by
  have hlower : legacyWithdrawal = cbor (.dict (envelopeEntries
      (withdrawalUpdate (toHex providerKey) none) (signatureOf legacyWithdrawalSignatures))) := rfl
  have hupper : upperWithdrawal = cbor (.dict (envelopeEntries (withdrawalUpdate capitals none)
      (signatureOf upperWithdrawalSignatures))) := rfl
  have hresigned : Resigned runtime (withdrawalUpdate (toHex providerKey) none)
      (withdrawalUpdate capitals none) (signatureOf legacyWithdrawalSignatures)
      (signatureOf upperWithdrawalSignatures) := resigned (by decide +kernel) (by decide +kernel)
  have hupdate := @recasedUpdate none (by decide +kernel) (by decide +kernel)
  have hne : cbor (.dict (envelopeEntries (withdrawalUpdate (toHex providerKey) none)
      (signatureOf legacyWithdrawalSignatures))) ≠ [] := by decide +kernel
  have hne' : cbor (.dict (envelopeEntries (withdrawalUpdate capitals none)
      (signatureOf upperWithdrawalSignatures))) ≠ [] := by decide +kernel
  rw [hlower, hupper]
  exact .legacy (loads_cbor (inOrder_envelopeEntries _ _) hne) rfl rfl rfl hupdate hresigned
    (loadsDict_cbor (inOrder_envelopeEntries _ _) hne')

/-- The authorization of the multisignature withdrawal. -/
def withdrawalAuthorization : Authorization :=
  providerAuthorization .ordinaryUpdate 1 ['a', 'b', 'c'] providerGenesisSignatures.digestBytes

/-- The entries of a multisignature envelope over the withdrawal. -/
def withdrawalEnvelope (hash : Text) (s : Signatures) : List (ℕ × Value) :=
  [(1, natValue 1), (2, .atom (.bytes (withdrawalUpdate hash (some withdrawalAuthorization)))),
    (3, .list (s.bySigner.map fun e => Proof.toValue ⟨some [e.1], signatureBytes e.2⟩))]

theorem inOrder_withdrawalEnvelope (hash : Text) (s : Signatures) :
    InOrder (.dict (natEntries (withdrawalEnvelope hash s))) := by
  refine .natEntries (by simp [withdrawalEnvelope]) ?_
  have hproofs : InOrder (.list (s.bySigner.map fun e =>
      Proof.toValue ⟨some [e.1], signatureBytes e.2⟩)) := by
    refine .list fun v hv => ?_
    obtain ⟨e, -, rfl⟩ := List.mem_map.1 hv
    exact Proof.inOrder_toValue _
  simpa [withdrawalEnvelope] using ⟨inOrder_natValue 1, .atom (.bytes _), hproofs⟩

/-- **The multisignature withdrawal, recased.** -/
theorem recased_providerWithdrawal :
    Recased runtime (toHex providerKey) capitals providerWithdrawal upperProviderWithdrawal := by
  have hlower : providerWithdrawal = cbor (.dict (natEntries (withdrawalEnvelope (toHex providerKey)
      providerWithdrawalSignatures))) := rfl
  have hupper : upperProviderWithdrawal = cbor (.dict (natEntries (withdrawalEnvelope capitals
      upperProviderWithdrawalSignatures))) := rfl
  have hupdate := @recasedUpdate (some withdrawalAuthorization) (by decide +kernel)
    (by decide +kernel)
  have hne : cbor (.dict (natEntries (withdrawalEnvelope (toHex providerKey)
      providerWithdrawalSignatures))) ≠ [] := by decide +kernel
  have hne' : cbor (.dict (natEntries (withdrawalEnvelope capitals
      upperProviderWithdrawalSignatures))) ≠ [] := by decide +kernel
  rw [hlower, hupper]
  refine .multisignature (loads_cbor (inOrder_withdrawalEnvelope _ _) hne) rfl rfl rfl hupdate
    (.cons ?_ (.cons ?_ .nil)) (loadsDict_cbor (inOrder_withdrawalEnvelope _ _) hne')
  · exact ⟨_, _, _, rfl, rfl, rfl, resigned (by decide +kernel) (by decide +kernel)⟩
  · exact ⟨_, _, _, rfl, rfl, rfl, resigned (by decide +kernel) (by decide +kernel)⟩

end DecentRegistry.Sample
