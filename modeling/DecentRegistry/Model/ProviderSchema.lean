import DecentRegistry.Model.ProviderUri
import Mathlib.Data.Char
import Mathlib.Data.List.Lex

/-!
# Provider payloads

`provider_schema.py`: the payload map of a Provider Record is an active v3 record (algorithm,
object hash, sorted provider URIs and endpoints) or a v2 withdrawal tombstone. `ProviderPayload`
is the union the decoder returns; `decodeProviderPayloadDict` decides by the version field first,
by a comparison that numbers of every type pass, and only then looks at the shape.
-/

namespace DecentRegistry

open Fallible PyValue ProviderUri

/-- `ProviderPayloadV3`: an active record. -/
structure ProviderPayloadV3 where
  alg : Text
  version : Int
  objectHash : Text
  providerUrls : List Text
  endpoints : List Text
  deriving DecidableEq

/-- `ProviderWithdrawnPayloadV2`: a tombstone. Its version is 2 and its status `withdrawn`. -/
structure ProviderWithdrawnPayloadV2 where
  alg : Text
  objectHash : Text
  replacementObjectHash : Option Text
  deriving DecidableEq

/-- What a provider payload decodes to. -/
inductive ProviderPayload
  | active (p : ProviderPayloadV3)
  | withdrawn (p : ProviderWithdrawnPayloadV2)
  deriving DecidableEq

namespace ProviderPayload

def objectHash : ProviderPayload → Text
  | .active p => p.objectHash
  | .withdrawn p => p.objectHash

def isWithdrawn : ProviderPayload → Bool
  | .active _ => false
  | .withdrawn _ => true

end ProviderPayload

/-! ## Field checks -/

/-- `_OBJECT_HASH_RE.fullmatch(s)`. -/
def isObjectHash (s : Text) : Bool := s.length = 64 && s.all isHexDigit

/-- `_validate_object_hash`. -/
def validateObjectHash (value : Value) (name : String) : Py Text := do
  let hash ← orRaise value.asText?
    (valueError (name ++ " must be exactly 64 hexadecimal characters"))
  raiseIf (!isObjectHash hash) (valueError (name ++ " must be exactly 64 hexadecimal characters"))
  return hash

/-- `alg`: a non-empty string. -/
def validateAlg (value : Value) : Py Text := do
  let alg ← orRaise value.asText? (valueError "alg must be a non-empty string")
  raiseIf alg.isEmpty (valueError "alg must be a non-empty string")
  return alg

/-- `sorted` on a list of strings, by code point. -/
def sortedTexts (texts : List Text) : List Text := texts.insertionSort (· ≤ ·)

/-- One element of `_validate_endpoints`. -/
def validateEndpoint (e : Text) : Py Text := do
  raiseIf (e.head? ≠ some '/') (valueError "endpoint must be multiaddr starting with '/'")
  raiseIf (256 < (utf8 e).length) (valueError "endpoint max 256 bytes")
  return e

/-- `_validate_endpoints`. -/
def validateEndpoints (endpoints : List Text) : Py (List Text) := do
  raiseIf (32 < endpoints.length) (valueError "endpoints max 32")
  endpoints.mapM validateEndpoint

/-- `normalize_sorted_provider_urls`. -/
def normalizeSortedProviderUrls (providerUrls : List Text) : Py (List Text) := do
  raiseIf (providerUrls.length < 1 ∨ 32 < providerUrls.length)
    (valueError "provider_urls must contain 1 to 32 URLs")
  let normalized ← providerUrls.mapM validateProviderUri
  raiseIf (¬ normalized.Nodup) (valueError "provider_urls must not contain duplicates")
  return sortedTexts normalized

/-- A list of strings. -/
def textList (value : Value) (e : PyError) : Py (List Text) := do
  let items ← orRaise value.asList? e
  items.mapM fun v => orRaise v.asText? e

/-! ## Decoding -/

/-- `version == 2 and not isinstance(version, bool)`. -/
def isVersion2 (payload : Dict) : Bool :=
  match payload.get? 2 with
  | some (.atom (.bool _)) => false
  | some v => v.isInt 2
  | none => false

/-- The v2 branch of `decode_provider_payload_dict`. -/
def decodeWithdrawnPayload (payload : Dict) : Py ProviderWithdrawnPayloadV2 := do
  raiseIf (!payload.keysAre [1, 2, 3, 4] && !payload.keysAre [1, 2, 3, 4, 5])
    (valueError "Provider payload v2 has missing or extra fields")
  let alg ← validateAlg (← getItem payload 1)
  let objectHash ← validateObjectHash (← getItem payload 3) "object_hash"
  raiseIf ((← getItem payload 4).asText? ≠ some ['w', 'i', 't', 'h', 'd', 'r', 'a', 'w', 'n'])
    (valueError "Provider payload v2 status must be 'withdrawn'")
  let replacementObjectHash ←
    if payload.has 5 then do
      let replacement ← validateObjectHash (← getItem payload 5) "replacement_object_hash"
      raiseIf ((← fromHex replacement) = (← fromHex objectHash))
        (valueError "replacement_object_hash must not reference itself")
      pure (some replacement)
    else pure none
  return { alg, objectHash, replacementObjectHash }

/-- The v3 branch of `decode_provider_payload_dict`. -/
def decodeActivePayload (payload : Dict) : Py ProviderPayloadV3 := do
  raiseIf (!payload.keysAre [1, 2, 3, 4, 5]) (valueError "provider payload keys mismatch")
  let version ← orRaise (← getItem payload 2).asInt?
    (valueError "provider version must be an integer")
  raiseIf (version ≠ 3) (valueError "unsupported provider payload version")
  let alg ← validateAlg (← getItem payload 1)
  let endpoints ← validateEndpoints
    (← textList (← getItem payload 5) (valueError "endpoints must be list[str]"))
  raiseIf (endpoints ≠ sortedTexts endpoints)
    (valueError "endpoints must be lexicographically sorted before signing")
  let providerUrlsRaw ← textList (← getItem payload 4)
    (valueError "provider_urls must be list[str]")
  let providerUrls ← normalizeSortedProviderUrls providerUrlsRaw
  raiseIf (providerUrlsRaw ≠ providerUrls)
    (valueError "provider_urls must be lexicographically sorted")
  let objectHash ← validateObjectHash (← getItem payload 3) "object_hash"
  return { alg, version, objectHash, providerUrls, endpoints }

/-- `decode_provider_payload_dict`. -/
def decodeProviderPayloadDict (payload : Dict) : Py ProviderPayload :=
  if isVersion2 payload then .withdrawn <$> decodeWithdrawnPayload payload
  else .active <$> decodeActivePayload payload

end DecentRegistry
