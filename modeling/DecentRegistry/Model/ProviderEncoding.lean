import DecentRegistry.Model.Signing

/-!
# Encoding provider payloads

The builders and the byte-level functions of `provider_schema.py`: `encode_provider_payload` and
`encode_provider_withdrawal_payload` write canonical CBOR, which `decode_provider_payload` demands.
-/

namespace DecentRegistry

open Fallible PyValue ProviderUri

/-- `normalize_sorted_endpoints`. -/
def normalizeSortedEndpoints (endpoints : List Text) : Py (List Text) := do
  let eps ← validateEndpoints endpoints
  return sortedTexts eps

/-- A list of strings as a value. -/
def textsValue (texts : List Text) : Value := .list (texts.map fun t => .atom (.text t))

/-- `build_provider_payload_dict`. -/
def buildProviderPayloadDict (alg objectHash : Text) (providerUrls endpoints : List Text)
    (version : Value := natValue 3) : Py Dict := do
  raiseIf (version.asInt? ≠ some 3) (valueError "active Provider Record version must be 3")
  raiseIf alg.isEmpty (valueError "alg must be a non-empty string")
  let normEps ← normalizeSortedEndpoints endpoints
  let normUrls ← normalizeSortedProviderUrls providerUrls
  let objectHash ← validateObjectHash (.atom (.text objectHash)) "object_hash"
  return [(.int 1, .atom (.text alg)), (.int 2, natValue 3), (.int 3, .atom (.text objectHash)),
    (.int 4, textsValue normUrls), (.int 5, textsValue normEps)]

variable (rt : Runtime)

/-- `encode_provider_payload`. -/
def encodeProviderPayload (alg objectHash : Text) (providerUrls endpoints : List Text)
    (version : Value := natValue 3) : Py Bytes := do
  let payload ← buildProviderPayloadDict alg objectHash providerUrls endpoints version
  canonicalCbor rt (.dict payload)

/-- `encode_provider_withdrawal_payload`. -/
def encodeProviderWithdrawalPayload (alg objectHash : Text) (replacementObjectHash : Option Text) :
    Py Bytes := do
  let payload ← buildProviderWithdrawalPayloadDict alg objectHash replacementObjectHash
  canonicalCbor rt (.dict payload)

/-- `decode_provider_payload`. -/
def decodeProviderPayload (data : Bytes) : Py ProviderPayload := do
  raiseIf (!isCanonicalCbor rt data) (valueError "non-canonical or invalid CBOR")
  let decoded ← rewrap (loads rt data) (valueError "invalid CBOR")
  let map ← orRaise decoded.asDict? (valueError "provider payload must be a CBOR map")
  decodeProviderPayloadDict map

end DecentRegistry
