import DecentRegistry.Model.Signing

/-!
# Building signed envelopes

`build_identity_envelope` of `envelope_builder.py`: the private key is loaded, a SignedUpdate over
the record is encoded and signed with it, and both go into an envelope. The builder of withdrawals
is `buildProviderWithdrawalEnvelope`. -/

namespace DecentRegistry

open Fallible PyValue

/-- `_parse_hex_bytes`. -/
def parseHexBytes (value : Text) (name : String) : Py Bytes :=
  rewrap (fromHex value) (valueError (name ++ " must be valid hex"))

variable (rt : Runtime) (keys : KeyStore)

/-- The end of the builder: the SignedUpdate, its signature and the envelope of both. -/
def signRecord (ownerPriv : keys.PrivateKey) (recordFields payload : Dict) (seq : Int) :
    Py Bytes := do
  let signedUpdateBytes ← encodeSignedUpdate rt recordFields payload (.atom (.int seq)) none
  let signature := makeSignedUpdateSignature rt keys signedUpdateBytes ownerPriv
  encodeSignedEnvelope rt signedUpdateBytes signature

/-- The record fields of an Identity. -/
def identityRecordFields (ownerName ownerPubBytes : Bytes) : Dict :=
  [(.int 1, .atom (.bytes ownerName)), (.int 2, .atom (.bytes ownerPubBytes))]

/-- `build_identity_envelope`. -/
def buildIdentityEnvelope (ownerNameHex ownerPrivkeyPemPath : Text) (seq : Int) : Py Bytes := do
  let (ownerPriv, ownerPubBytes) ← loadEd25519Keypair keys ownerPrivkeyPemPath
  let ownerName ← parseHexBytes ownerNameHex "owner_name"
  signRecord rt keys ownerPriv (identityRecordFields ownerName ownerPubBytes) [] seq

end DecentRegistry
