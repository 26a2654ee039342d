import DecentRegistry.Foundations.DistinctReading
import DecentRegistry.Model.Signing
import DecentRegistry.Model.Verification.Multisignature

/-!
# Multisignature bundles

`multisig_bundle.py`: the local workflow that collects the proofs of a multisignature SignedUpdate.
A bundle is drafted (`draftBundle`), each signer makes a detached proof of it (`signBundle`), the
proofs are merged (`mergeProof`, `mergeProofs`), and the bundle is finalized into an envelope
(`finalizeBundle`). Signer identifiers and keys are always those of the signer set in the bundle's
own SignedUpdate.

What the constructors check is carried by the structures: the identifier of a proof is not empty,
the SignedUpdate of a bundle decodes, and its proofs are sorted.
-/

namespace DecentRegistry

open Fallible PyValue DistinctReading

/-! ## Proofs -/

/-- `MultisignatureProof`: a detached signature, and the SignedUpdate it is bound to. -/
structure MultisignatureProof where
  signedUpdateBytes : Bytes
  signerId : Text
  signature : Bytes
  nonempty : signerId ≠ []
  deriving DecidableEq

namespace MultisignatureProof

/-- `MultisignatureProof(...)`; the signer identifier of a wire proof may be null. -/
def make (signedUpdateBytes : Bytes) (signerId : Option Text) (signature : Bytes) :
    Py MultisignatureProof :=
  match signerId with
  | none => throw (valueError "proof signer_id must be a non-empty text string")
  | some signerId =>
    if h : signerId = [] then throw (valueError "proof signer_id must be a non-empty text string")
    else return { signedUpdateBytes, signerId, signature, nonempty := h }

/-- The proof as an envelope carries it. -/
def proof (p : MultisignatureProof) : Proof := ⟨some p.signerId, p.signature⟩

/-- `to_wire`. -/
def toWire (p : MultisignatureProof) : Value := p.proof.toValue

/-- `_proof_sort_key`. -/
def sortKey (p : MultisignatureProof) : Bytes := utf8 p.signerId

@[simp] theorem proof_signerId (p : MultisignatureProof) : p.proof.signerId = some p.signerId := rfl

end MultisignatureProof

/-! ## Bundles -/

/-- `MultisignatureBundle`, with the SignedUpdate its bytes decode to. -/
structure MultisignatureBundle (rt : Runtime) where
  signedUpdateBytes : Bytes
  proofs : List MultisignatureProof
  signedUpdate : MultisignatureUpdate
  decodes : decodeMultisignatureSignedUpdate rt signedUpdateBytes = .ok signedUpdate
  sorted : sortedBy MultisignatureProof.sortKey proofs = proofs

namespace MultisignatureBundle

variable {rt : Runtime}

/-- `MultisignatureBundle(...)`. -/
def make (rt : Runtime) (signedUpdateBytes : Bytes) (proofs : List MultisignatureProof) :
    Py (MultisignatureBundle rt) :=
  match h : decodeMultisignatureSignedUpdate rt signedUpdateBytes with
  | .error e => throw e
  | .ok signedUpdate =>
    return { signedUpdateBytes, proofs := sortedBy MultisignatureProof.sortKey proofs, signedUpdate,
             decodes := h, sorted := sortedBy_sortedBy _ _ }

def authorization (bundle : MultisignatureBundle rt) : Authorization :=
  bundle.signedUpdate.authorization

def recordKind (bundle : MultisignatureBundle rt) : RecordKind := bundle.authorization.recordKind

def threshold (bundle : MultisignatureBundle rt) : ℕ := bundle.authorization.threshold

def signerSet (bundle : MultisignatureBundle rt) : List SignerEntry :=
  bundle.authorization.signerSet

/-- `to_cbor`: the bundle's wire envelope, whatever the proofs. -/
def toCbor (bundle : MultisignatureBundle rt) : Py Bytes :=
  encodeMultisignatureEnvelope rt bundle.signedUpdateBytes
    (.list (bundle.proofs.map MultisignatureProof.toWire))

/-- `from_cbor`. -/
def fromCbor (rt : Runtime) (bundleCbor : Bytes) : Py (MultisignatureBundle rt) := do
  let envelope ← decodeMultisignatureEnvelope rt bundleCbor
  let proofs ← envelope.proofs.mapM fun proof =>
    MultisignatureProof.make envelope.signedUpdateBytes proof.signerId proof.signature
  make rt envelope.signedUpdateBytes proofs

end MultisignatureBundle

/-! ## The workflow -/

/-- The arguments of `draft_bundle`, with its defaults. -/
structure DraftArguments where
  recordKind : Value
  recordFields : Dict
  payload : Dict
  seq : Value
  signerSet : List Value
  threshold : Value := natValue 2
  epoch : Value := natValue 1
  predecessorStateHash : Value := .atom (.bytes (List.replicate 32 0))
  operation : Value := natValue Operation.genesis.code

/-- `_authorization`. -/
def DraftArguments.authorization (a : DraftArguments) : Value :=
  .dict [(.int 1, natValue 1), (.int 2, a.recordKind), (.int 3, a.operation), (.int 4, a.epoch),
    (.int 5, a.threshold), (.int 6, .list a.signerSet), (.int 7, a.predecessorStateHash)]

variable (rt : Runtime) (keys : KeyStore)

/-- `draft_bundle`. -/
def draftBundle (a : DraftArguments) : Py (MultisignatureBundle rt) := do
  let signedUpdateBytes ← encodeMultisignatureSignedUpdate rt a.recordFields a.payload a.seq
    a.authorization
  MultisignatureBundle.make rt signedUpdateBytes []

variable {rt}

/-- `sign_bundle`: the proof is under the first identifier that has the key. -/
def signBundle (bundle : MultisignatureBundle rt) (signerPrivateKey : keys.PrivateKey) :
    Py MultisignatureProof := do
  let publicKey := keys.publicKey signerPrivateKey
  let signer ← orRaise (bundle.signerSet.find? (·.publicKey = publicKey))
    (valueError "signer is not a member of the bundle Signer Set")
  let signature := makeSignedUpdateSignature rt keys bundle.signedUpdateBytes signerPrivateKey
  MultisignatureProof.make bundle.signedUpdateBytes (some signer.signerId) signature

/-- `_validate_proof`. -/
def validateProof (bundle : MultisignatureBundle rt) (proof : MultisignatureProof) : Py Unit := do
  raiseIf (proof.signedUpdateBytes ≠ bundle.signedUpdateBytes)
    (valueError "proof is not bound to the exact bundle SignedUpdate")
  let expectedPublicKey ← orRaise (lookupSigner bundle.signerSet (some proof.signerId))
    (valueError "proof signer is not a member of the bundle Signer Set")
  raiseIf (proof.signature.length ≠ 64) (valueError "proof signature is malformed")
  requireValidProof rt expectedPublicKey bundle.signedUpdateBytes proof.signature
    "proof signature is invalid"

/-- `merge_proof`. -/
def mergeProof (bundle : MultisignatureBundle rt) (proof : MultisignatureProof) :
    Py (MultisignatureBundle rt) := do
  raiseIf (∃ existing ∈ bundle.proofs, existing.signerId = proof.signerId)
    (valueError "duplicate proof signer")
  validateProof bundle proof
  MultisignatureBundle.make rt bundle.signedUpdateBytes (bundle.proofs ++ [proof])

/-- `merge_proofs`. -/
def mergeProofs (bundle : MultisignatureBundle rt) (proofs : List MultisignatureProof) :
    Py (MultisignatureBundle rt) :=
  proofs.foldlM mergeProof bundle

/-- The loop of `finalize_bundle`; returns the identifiers seen. -/
def checkBundleProofs (bundle : MultisignatureBundle rt) :
    List MultisignatureProof → List Text → Py (List Text)
  | [], seen => return seen
  | proof :: rest, seen => do
    raiseIf (proof.signerId ∈ seen) (valueError "duplicate proof signer")
    validateProof bundle proof
    checkBundleProofs bundle rest (seen ++ [proof.signerId])

/-- `finalize_bundle`. An upgrade has one proof, of the owner; any other operation has proofs of as
many signers as the bundle's threshold says. -/
def finalizeBundle (bundle : MultisignatureBundle rt) : Py Bytes := do
  let seen ← checkBundleProofs bundle bundle.proofs []
  if bundle.authorization.operation = .upgrade then
    raiseIf (seen.length ≠ 1) (valueError "upgrade requires one legacy owner proof")
    let ownerPublicKey ← ownerPublicKeyField bundle.recordKind bundle.signedUpdate.recordFields
    -- there is a first proof, since one identifier was seen
    let proof ← orRaise bundle.proofs.head? ⟨.external, ""⟩
    raiseIf (lookupSigner bundle.signerSet (some proof.signerId) ≠ some ownerPublicKey)
      (valueError "upgrade proof must be from the legacy owner")
  else raiseIf (seen.length < bundle.threshold) (valueError "threshold not met")
  encodeMultisignatureEnvelope rt bundle.signedUpdateBytes
    (.list (bundle.proofs.map MultisignatureProof.toWire))

end DecentRegistry
