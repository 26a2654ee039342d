import DecentRegistry.Model.SignedEnvelope
import DecentRegistry.Sample.Runtime

/-!
# Sample records

Envelopes over the concrete runtime: an Identity Record from its legacy form to an owner-key
rotation, a Provider Record through its operations, and envelopes of other owners for the same keys.
-/

namespace DecentRegistry.Sample

open PyValue Sha256

/-- The canonical encoding. -/
def cbor (v : Value) : Bytes := (Cbor.encode v).getD []

def text (s : String) : Text := s.toList

/-- A digest as bytes. -/
def Signatures.digestBytes (s : Signatures) : Bytes := bigEndian 32 s.digest

/-! ## Envelopes -/

/-- A legacy envelope over a SignedUpdate without authorization. -/
def legacyEnvelope (recordFields payload : Dict) (seq : ℕ) (s : Signatures) : Bytes :=
  let signedUpdateBytes :=
    cbor (.dict [(.int 1, .dict recordFields), (.int 2, .dict payload), (.int 3, natValue seq)])
  cbor (.dict [(.int 1, .atom (.bytes signedUpdateBytes)),
    (.int 2, .atom (.bytes (s.bySigner.head?.elim [] fun e => signatureBytes e.2)))])

/-- The signers of the given names. -/
def signers (names : List Char) : List SignerEntry := names.map fun c => ⟨[c], publicKey c⟩

/-- A multisignature envelope with one proof for each signature. -/
def multisignatureEnvelope (recordFields payload : Dict) (seq : ℕ) (authorization : Authorization)
    (s : Signatures) : Bytes :=
  let signedUpdateBytes :=
    cbor (.dict [(.int 1, .dict recordFields), (.int 2, .dict payload), (.int 3, natValue seq),
      (.int 4, authorization.toValue)])
  let proofs := s.bySigner.map fun e => Proof.toValue ⟨some [e.1], signatureBytes e.2⟩
  cbor (.dict [(.int 1, natValue 1), (.int 2, .atom (.bytes signedUpdateBytes)),
    (.int 3, .list proofs)])

/-! ## The Identity Record of `alice` -/

def ownerName : Bytes := [97, 108, 105, 99, 101]

def identityKey : Bytes := sha256 ownerName

def identityFields (owner : Char) : Dict :=
  [(.int 1, .atom (.bytes ownerName)), (.int 2, .atom (.bytes (publicKey owner)))]

def identityAuthorization (operation : Operation) (epoch : ℕ) (names : List Char)
    (predecessorStateHash : Bytes) : Authorization :=
  { scheme := 1, recordKind := .identity, operation, epoch, threshold := 2,
    signerSet := signers names, predecessorStateHash }

def legacyIdentity : Bytes := legacyEnvelope (identityFields 'a') [] 1 legacyIdentitySignatures

def upgrade : Bytes :=
  multisignatureEnvelope (identityFields 'a') [] 2
    (identityAuthorization .upgrade 1 ['a', 'b', 'c'] legacyIdentitySignatures.digestBytes)
    upgradeSignatures

def replacement : Bytes :=
  multisignatureEnvelope (identityFields 'a') [] 3
    (identityAuthorization .replaceSigners 2 ['c', 'd', 'e'] upgradeSignatures.digestBytes)
    replacementSignatures

def rotation : Bytes :=
  multisignatureEnvelope (identityFields 'd') [] 4
    (identityAuthorization .ownerKeyRotation 2 ['c', 'd', 'e'] replacementSignatures.digestBytes)
    rotationSignatures

def identityGenesis : Bytes :=
  multisignatureEnvelope (identityFields 'a') [] 1
    (identityAuthorization .genesis 1 ['a', 'b', 'c'] (List.replicate 32 0))
    identityGenesisSignatures

/-- The replacement with the proofs of another quorum. -/
def otherReplacement : Bytes :=
  multisignatureEnvelope (identityFields 'a') [] 3
    (identityAuthorization .replaceSigners 2 ['c', 'd', 'e'] upgradeSignatures.digestBytes)
    otherReplacementSignatures

/-- The replacement with the proofs of two of the signers it installs. -/
def newReplacement : Bytes :=
  multisignatureEnvelope (identityFields 'a') [] 3
    (identityAuthorization .replaceSigners 2 ['c', 'd', 'e'] upgradeSignatures.digestBytes)
    newReplacementSignatures

/-- The replacement of `c` by `d`, with proofs of the two signers that stay. -/
def partialReplacement : Bytes :=
  multisignatureEnvelope (identityFields 'a') [] 3
    (identityAuthorization .replaceSigners 2 ['a', 'b', 'd'] upgradeSignatures.digestBytes)
    partialReplacementSignatures

/-- A legacy Identity with a payload, which Identity Records do not have. -/
def looseIdentity : Bytes :=
  legacyEnvelope (identityFields 'a') [(.int 1, natValue 0)] 1 looseIdentitySignatures

def looseUpgrade : Bytes :=
  multisignatureEnvelope (identityFields 'a') [] 2
    (identityAuthorization .upgrade 1 ['a', 'b', 'c'] looseIdentitySignatures.digestBytes)
    looseUpgradeSignatures

/-- The owner publishes again. -/
def laterIdentity : Bytes := legacyEnvelope (identityFields 'a') [] 2 laterIdentitySignatures

def foreignIdentity : Bytes := legacyEnvelope (identityFields 'e') [] 2 foreignIdentitySignatures

/-! ## A Provider Record -/

/-- The Object Hash, which is the record key. -/
def providerKey : Bytes :=
  bigEndian 32 0x2958d416d08aa5a472d7b509036cb7eafd542add84527e66a145ea64cb4cdc75

def providerFields (owner : Char) : Dict := [(.int 1, .atom (.bytes (publicKey owner)))]

def activePayload : Dict :=
  [(.int 1, .atom (.text (text "sha256"))), (.int 2, natValue 3),
    (.int 3, .atom (.text (toHex providerKey))),
    (.int 4, .list [.atom (.text (text "https://example.org/o"))]), (.int 5, .list [])]

def withdrawnPayload : Dict :=
  [(.int 1, .atom (.text (text "sha256"))), (.int 2, natValue 2),
    (.int 3, .atom (.text (toHex providerKey))), (.int 4, .atom (.text (text "withdrawn")))]

def providerAuthorization (operation : Operation) (epoch : ℕ) (names : List Char)
    (predecessorStateHash : Bytes) : Authorization :=
  { scheme := 1, recordKind := .provider, operation, epoch, threshold := 2,
    signerSet := signers names, predecessorStateHash }

def providerGenesis : Bytes :=
  multisignatureEnvelope (providerFields 'a') activePayload 1
    (providerAuthorization .genesis 1 ['a', 'b', 'c'] (List.replicate 32 0))
    providerGenesisSignatures

def providerReplacement : Bytes :=
  multisignatureEnvelope (providerFields 'a') activePayload 2
    (providerAuthorization .replaceSigners 2 ['c', 'd', 'e'] providerGenesisSignatures.digestBytes)
    providerReplacementSignatures

def providerWithdrawal : Bytes :=
  multisignatureEnvelope (providerFields 'a') withdrawnPayload 2
    (providerAuthorization .ordinaryUpdate 1 ['a', 'b', 'c'] providerGenesisSignatures.digestBytes)
    providerWithdrawalSignatures

def providerReactivation : Bytes :=
  multisignatureEnvelope (providerFields 'a') activePayload 3
    (providerAuthorization .ordinaryUpdate 1 ['a', 'b', 'c']
      providerWithdrawalSignatures.digestBytes)
    providerReactivationSignatures

def foreignProvider : Bytes :=
  legacyEnvelope (providerFields 'e') activePayload 9 foreignProviderSignatures

def legacyProvider : Bytes :=
  legacyEnvelope (providerFields 'a') activePayload 1 legacyProviderSignatures

def legacyWithdrawal : Bytes :=
  legacyEnvelope (providerFields 'a') withdrawnPayload 2 legacyWithdrawalSignatures

def legacyReactivation : Bytes :=
  legacyEnvelope (providerFields 'a') activePayload 3 legacyReactivationSignatures

/-- The withdrawal with its Object Hash in upper case. -/
def upperWithdrawal : Bytes :=
  legacyEnvelope (providerFields 'a')
    (withdrawnPayload.map fun e =>
      if e.1 = .int 3 then (e.1, .atom (.text ((toHex providerKey).map Char.toUpper))) else e)
    2 upperWithdrawalSignatures

/-- The multisignature withdrawal with its Object Hash in upper case. -/
def upperProviderWithdrawal : Bytes :=
  multisignatureEnvelope (providerFields 'a')
    (withdrawnPayload.map fun e =>
      if e.1 = .int 3 then (e.1, .atom (.text ((toHex providerKey).map Char.toUpper))) else e)
    2 (providerAuthorization .ordinaryUpdate 1 ['a', 'b', 'c']
      providerGenesisSignatures.digestBytes)
    upperProviderWithdrawalSignatures

/-- An ordinary update that names one signer, and the epoch 0. -/
def soloProvider : Bytes :=
  multisignatureEnvelope (providerFields 'a') activePayload 2
    { providerAuthorization .ordinaryUpdate 0 ['a'] (List.replicate 32 0) with threshold := 1 }
    soloProviderSignatures

/-! ## Provider Records that also read as Identity Records -/

/-- The hash of the key of `a`, as an Object Hash and as an Identity key. -/
def namedKey : Bytes := sha256 (publicKey 'a')

def ambiguousFields : Dict :=
  [(.int 1, .atom (.bytes (publicKey 'a'))), (.int 2, .atom (.bytes (publicKey 'e')))]

/-- The payload with the Object Hash `namedKey`. -/
def named (payload : Dict) : Dict :=
  payload.map fun e => if e.1 = .int 3 then (e.1, .atom (.text (toHex namedKey))) else e

def namedProvider : Bytes :=
  legacyEnvelope (providerFields 'a') (named activePayload) 1 namedProviderSignatures

def ambiguousProvider : Bytes :=
  legacyEnvelope ambiguousFields (named activePayload) 1 ambiguousProviderSignatures

def ambiguousWithdrawal : Bytes :=
  legacyEnvelope ambiguousFields (named withdrawnPayload) 2 ambiguousWithdrawalSignatures

end DecentRegistry.Sample
