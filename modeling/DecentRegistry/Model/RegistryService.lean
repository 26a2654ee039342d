import DecentRegistry.Model.Dht.Provider
import DecentRegistry.Model.RecordValidator
import DecentRegistry.Model.Signing

/-!
# Withdrawal of a Provider Record

`RegistryService.withdraw_provider`: the candidate is built with a private key or supplied
finalized, the current head is read and validated, the candidate is validated over it, and only then
published. The service is a coroutine over the calls of its DHT (`RegistryRequest`), which may fail
with any exception. -/

namespace DecentRegistry

open Fallible PyValue Coroutine

/-- The calls of `RegistryDHT` that a withdrawal makes. -/
inductive RegistryRequest
  | getSignedProviderEnvelope (objectHash : Text) (quorum : ℕ)
  | putSignedProviderRecord (objectHash : Text) (envelopeCbor : Bytes)

/-- Their results. -/
def RegistryRequest.Answer : RegistryRequest → Type
  | .getSignedProviderEnvelope _ _ => Option Bytes
  | .putSignedProviderRecord _ _ => Unit

/-- The methods of `RegistryService`. -/
abbrev Service (σ α : Type) := Coro σ RegistryRequest RegistryRequest.Answer PyError α

variable (rt : Runtime) (keys : KeyStore)

/-- The arguments of `withdraw_provider`. -/
structure WithdrawalArguments where
  objectHash : Text
  ownerPrivkeyPemPath : Option Text
  seq : Option Int
  replacementObjectHash : Option Text
  envelopeCbor : Option Bytes

/-- The candidate envelope. -/
def withdrawalCandidate (a : WithdrawalArguments) : Py Bytes := do
  match a.envelopeCbor with
  | some envelopeCbor =>
    raiseIf (a.ownerPrivkeyPemPath.isSome ∨ a.seq.isSome ∨ a.replacementObjectHash.isSome)
      (valueError "finalized withdrawal cannot be combined with legacy signing arguments")
    return envelopeCbor
  | none =>
    match a.ownerPrivkeyPemPath, a.seq with
    | some path, some seq =>
      buildProviderWithdrawalEnvelope rt keys a.objectHash path seq a.replacementObjectHash
    | _, _ => throw (typeError "legacy withdrawal requires owner_privkey_pem_path and seq")

/-- The validation of the current head. -/
def requireActiveHead (objectHash : Text) (current : Bytes) : Py Unit := do
  let read ← rewrap (do
    let recordKey ← fromHex objectHash
    validateProviderGet rt recordKey current none)
    ⟨.providerStateInvalid, "current Provider Record is invalid"⟩
  match read with
  | .withdrawn _ => throw alreadyWithdrawn
  | _ => return ()

/-- The exceptions of the validation of the candidate. -/
def withdrawalError (e : PyError) : PyError :=
  if e.cls = .providerAlreadyWithdrawn then e
  else valueError "withdrawal envelope is invalid for the selected Provider state"

/-- The validation of the candidate over the current head. -/
def requireWithdrawal (objectHash : Text) (candidate current : Bytes) : Py Unit := do
  let proposed ← (do
    let recordKey ← fromHex objectHash
    validateProviderOverwrite rt recordKey candidate (some current)).mapError withdrawalError
  match proposed with
  | .withdrawn _ => return ()
  | .overwrite _ => throw (valueError "withdrawal envelope does not contain a Provider tombstone")

/-- The exceptions of the read of the head. -/
def headReadError (e : PyError) : PyError :=
  if e.cls = .providerStateConflict ∨ e.cls.isException = false then e
  else providerStateUnavailable "could not read current Provider Record before withdrawal"

/-- `RegistryService.withdraw_provider`. -/
def withdrawProvider {σ : Type} (a : WithdrawalArguments) : Service σ Unit := do
  let candidate ← withdrawalCandidate rt keys a
  let read ← (Coro.request (RegistryRequest.getSignedProviderEnvelope a.objectHash 0)).orHandle
    fun e => .raise (headReadError e)
  let current ← orRaise read
    (providerStateUnavailable "no valid active Provider Record was available for withdrawal")
  requireActiveHead rt a.objectHash current
  requireWithdrawal rt a.objectHash candidate current
  Coro.request (RegistryRequest.putSignedProviderRecord a.objectHash candidate)

end DecentRegistry
