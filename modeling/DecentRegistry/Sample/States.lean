import DecentRegistry.Model.Verification.Multisignature
import DecentRegistry.Sample.Records

/-!
# Sample states

The multisignature states that the sample Provider Record goes through, and that of the sample
Identity Record after its upgrade. Each is a value that validation computes, and is evaluated once:
`activeState_fields`, `withdrawnState_fields` and `upgradedState_fields` say what it is.
-/

namespace DecentRegistry.Sample

open Fallible PyValue Sha256

/-- A state of the Provider Record in its first epoch. -/
def providerState (payload : Dict) (seq : ℕ) (operation : Operation)
    (predecessorStateHash : Bytes) (s : Signatures) : MultisignatureState :=
  { recordKey := providerKey
    recordKind := .provider
    ownerPublicKey := publicKey 'a'
    signedUpdateBytes := cbor (.dict [(.int 1, .dict (providerFields 'a')),
      (.int 2, .dict payload), (.int 3, natValue seq), (.int 4,
        (providerAuthorization operation 1 ['a', 'b', 'c'] predecessorStateHash).toValue)])
    stateHash := s.digestBytes
    epoch := 1
    seq
    threshold := 2
    signerSet := signers ['a', 'b', 'c']
    history := none }

/-! ## The Provider Record after its genesis -/

theorem providerGenesis_accepted :
    validateMultisignatureUpdate runtime providerKey providerGenesis none none =
      .ok (providerState activePayload 1 .genesis (List.replicate 32 0)
        providerGenesisSignatures) := by
  decide +kernel

theorem isOk_providerGenesis :
    (validateMultisignatureUpdate runtime providerKey providerGenesis none none).isOk = true := by
  rw [providerGenesis_accepted]
  rfl

/-- The state after the genesis. -/
def activeState : MultisignatureState := valueOf _ isOk_providerGenesis

theorem activeState_eq :
    validateMultisignatureUpdate runtime providerKey providerGenesis none none = .ok activeState :=
  eq_ok_valueOf _

theorem activeState_fields : activeState =
    providerState activePayload 1 .genesis (List.replicate 32 0) providerGenesisSignatures :=
  Except.ok.inj (activeState_eq.symm.trans providerGenesis_accepted)

/-! ## Its withdrawal -/

theorem providerWithdrawal_accepted :
    validateMultisignatureUpdate runtime providerKey providerWithdrawal (some activeState) none =
      .ok (providerState withdrawnPayload 2 .ordinaryUpdate providerGenesisSignatures.digestBytes
        providerWithdrawalSignatures) := by
  rw [activeState_fields]
  decide +kernel

theorem isOk_providerWithdrawal :
    (validateMultisignatureUpdate runtime providerKey providerWithdrawal (some activeState)
      none).isOk = true := by
  rw [providerWithdrawal_accepted]
  rfl

/-- The state after the withdrawal. -/
def withdrawnState : MultisignatureState := valueOf _ isOk_providerWithdrawal

theorem withdrawnState_eq :
    validateMultisignatureUpdate runtime providerKey providerWithdrawal (some activeState) none =
      .ok withdrawnState :=
  eq_ok_valueOf _

theorem withdrawnState_fields : withdrawnState =
    providerState withdrawnPayload 2 .ordinaryUpdate providerGenesisSignatures.digestBytes
      providerWithdrawalSignatures :=
  Except.ok.inj (withdrawnState_eq.symm.trans providerWithdrawal_accepted)

/-! ## The Identity Record after its upgrade -/

/-- Its state, field by field. -/
def identityState : MultisignatureState :=
  { recordKey := identityKey
    recordKind := .identity
    ownerPublicKey := publicKey 'a'
    signedUpdateBytes := cbor (.dict [(.int 1, .dict (identityFields 'a')), (.int 2, .dict []),
      (.int 3, natValue 2), (.int 4, (identityAuthorization .upgrade 1 ['a', 'b', 'c']
        legacyIdentitySignatures.digestBytes).toValue)])
    stateHash := upgradeSignatures.digestBytes
    epoch := 1
    seq := 2
    threshold := 2
    signerSet := signers ['a', 'b', 'c']
    history := some [legacyIdentity, upgrade] }

theorem upgrade_accepted :
    validateMultisignatureUpdate runtime identityKey upgrade none (some legacyIdentity) =
      .ok identityState := by
  decide +kernel

theorem isOk_upgrade :
    (validateMultisignatureUpdate runtime identityKey upgrade none (some legacyIdentity)).isOk =
      true := by
  rw [upgrade_accepted]
  rfl

/-- The state after the upgrade. -/
def upgradedState : MultisignatureState := valueOf _ isOk_upgrade

theorem upgradedState_eq :
    validateMultisignatureUpdate runtime identityKey upgrade none (some legacyIdentity) =
      .ok upgradedState :=
  eq_ok_valueOf _

theorem upgradedState_fields : upgradedState = identityState :=
  Except.ok.inj (upgradedState_eq.symm.trans upgrade_accepted)

end DecentRegistry.Sample
