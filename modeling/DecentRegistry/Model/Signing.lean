import DecentRegistry.Model.ProviderSchema
import DecentRegistry.Model.SignedEnvelope

/-!
# Private keys and what is built with them

`crypto_utils.py` and `make_signed_update_signature` as far as they sign, and the withdrawal of
`envelope_builder.py`. Private keys, their files and Ed25519 signing belong to other packages
(`KeyStore`).
-/

namespace DecentRegistry

open Fallible PyValue

/-- The private keys of the Ed25519 package. -/
structure KeyStore where
  PrivateKey : Type
  /-- The private key of a PEM file. -/
  load : Text → Py PrivateKey
  /-- `private_key.get_public_key().to_bytes()`. -/
  publicKey : PrivateKey → Bytes
  /-- `private_key.sign(_)`. -/
  sign : PrivateKey → Bytes → Bytes

variable (rt : Runtime) (keys : KeyStore)

/-- `load_ed25519_keypair_from_privkey_pem_path`. -/
def loadEd25519Keypair (privkeyPemPath : Text) : Py (keys.PrivateKey × Bytes) := do
  let ownerPriv ← keys.load privkeyPemPath
  return (ownerPriv, keys.publicKey ownerPriv)

/-- `make_signed_update_signature`. -/
def makeSignedUpdateSignature (signedUpdateBytes : Bytes) (privateKey : keys.PrivateKey) : Bytes :=
  keys.sign privateKey (rt.sha256 signedUpdateBytes)

/-- `build_provider_withdrawal_payload_dict`. -/
def buildProviderWithdrawalPayloadDict (alg objectHash : Text)
    (replacementObjectHash : Option Text) :
    Py Dict := do
  raiseIf alg.isEmpty (valueError "alg must be a non-empty string")
  let objectHash ← validateObjectHash (.atom (.text objectHash)) "object_hash"
  let payload : Dict := [(.int 1, .atom (.text alg)), (.int 2, natValue 2),
    (.int 3, .atom (.text objectHash)),
    (.int 4, .atom (.text ['w', 'i', 't', 'h', 'd', 'r', 'a', 'w', 'n']))]
  match replacementObjectHash with
  | none => return payload
  | some replacement =>
    let replacement ← validateObjectHash (.atom (.text replacement)) "replacement_object_hash"
    raiseIf ((← fromHex replacement) = (← fromHex objectHash))
      (valueError "replacement_object_hash must not reference itself")
    return payload ++ [(.int 5, .atom (.text replacement))]

/-- `build_provider_withdrawal_envelope`, with its default algorithm. -/
def buildProviderWithdrawalEnvelope (objectHash ownerPrivkeyPemPath : Text) (seq : Int)
    (replacementObjectHash : Option Text) : Py Bytes := do
  let (ownerPriv, ownerPubBytes) ← loadEd25519Keypair keys ownerPrivkeyPemPath
  let payload ← buildProviderWithdrawalPayloadDict ['E', 'd', '2', '5', '5', '1', '9'] objectHash
    replacementObjectHash
  let signedUpdateBytes ← encodeSignedUpdate rt [(.int 1, .atom (.bytes ownerPubBytes))] payload
    (.atom (.int seq)) none
  let signature := makeSignedUpdateSignature rt keys signedUpdateBytes ownerPriv
  encodeSignedEnvelope rt signedUpdateBytes signature

end DecentRegistry
