import DecentRegistry.Model.Dht.Identity
import DecentRegistry.Model.EnvelopeBuilder

/-!
# The Registry service

The methods of `RegistryService` that publish and read an Identity, over an instance as its DHT.
Publication takes either what the record is signed with or a finished envelope; a read hands on what
the instance returns. A withdrawal is `withdrawProvider`. -/

namespace DecentRegistry.RegistryService

open Fallible PyValue Coroutine

variable (rt : Runtime) (keys : KeyStore) (d : DhtInstance)

/-- `_derive_identity_object_hash_from_owner_name_hex`. -/
def deriveIdentityObjectHash (ownerNameHex : Text) : Py Text := do
  let ownerName ← parseHexBytes ownerNameHex "owner_name"
  return toHex (rt.sha256 ownerName)

/-- The arguments of `put_identity`. -/
structure IdentityArguments where
  ownerNameHex : Text
  ownerPrivkeyPemPath : Option Text
  seq : Option Int
  envelopeCbor : Option Bytes

/-- `put_identity_envelope`. -/
def putIdentityEnvelope (ownerNameHex : Text) (envelopeCbor : Bytes) : Dht Unit := do
  let objectKeyHex ← deriveIdentityObjectHash rt ownerNameHex
  putSignedIdentityRecord rt d objectKeyHex envelopeCbor

/-- `put_identity`. -/
def putIdentity (a : IdentityArguments) : Dht Unit := do
  match a.envelopeCbor with
  | some envelopeCbor =>
    raiseIf (a.ownerPrivkeyPemPath.isSome ∨ a.seq.isSome)
      (valueError "envelope_cbor cannot be combined with legacy identity signing arguments")
    putIdentityEnvelope rt d a.ownerNameHex envelopeCbor
  | none =>
    match a.ownerPrivkeyPemPath, a.seq with
    | some path, some seq =>
      let objectKeyHex ← deriveIdentityObjectHash rt a.ownerNameHex
      let envelopeCbor ← buildIdentityEnvelope rt keys a.ownerNameHex path seq
      putSignedIdentityRecord rt d objectKeyHex envelopeCbor
    | _, _ => .raise (typeError "legacy identity put requires owner_privkey_pem_path and seq")

/-- `get_identity`. -/
def getIdentity (ownerNameHex : Text) (quorum : ℕ) : Dht (Option IdentityRead) := do
  let objectKeyHex ← deriveIdentityObjectHash rt ownerNameHex
  getSignedIdentityRecord rt d objectKeyHex quorum

end DecentRegistry.RegistryService
