import DecentRegistry.Foundations.Fallible
import DecentRegistry.Foundations.PyValue

/-!
# Exceptions, and what the Registry takes from other packages

* `PyError` is a raised exception: its class and its message. Parts of a message that print an
  arbitrary value (`{value!r}`) are left out.
* `Runtime` collects the functions of packages that are not part of the repository: the CBOR
  codec `cbor2`, SHA-256 and Ed25519 verification. Everything in `Model` takes one as a parameter,
  so a theorem about the model holds of every codec, hash and signature scheme; what a theorem
  needs to know of them is a named hypothesis (`Runtime.RoundTrips`).
-/

namespace DecentRegistry

open Fallible PyValue

/-- The exception classes the Registry distinguishes. `external` is any exception of another
package; `cancelled` is the cancellation of a task, and `timedOut` that of a block under a
deadline. -/
inductive ExceptionClass
  | valueError
  | typeError
  | keyError
  | runtimeError
  | identityStatePreconditionFailed
  | identityPublicationExpired
  | identityStateUnavailable
  | identityHistoryUnavailable
  | providerAlreadyWithdrawn
  | providerStateUnavailable
  | providerStateInvalid
  | providerStateConflict
  | external
  | cancelled
  | timedOut
  deriving DecidableEq

/-- A raised exception. -/
structure PyError where
  cls : ExceptionClass
  message : String
  deriving DecidableEq

/-- Computations of the Registry. -/
abbrev Py (α : Type) := Except PyError α

/-- `except ValueError` catches the class and its subclasses. -/
def ExceptionClass.isValueError : ExceptionClass → Bool
  | .valueError | .identityStatePreconditionFailed | .identityPublicationExpired
  | .providerAlreadyWithdrawn | .providerStateInvalid | .providerStateConflict => true
  | _ => false

/-- `except Exception` does not catch a cancellation. -/
def ExceptionClass.isException : ExceptionClass → Bool
  | .cancelled | .timedOut => false
  | _ => true

def valueError (message : String) : PyError := ⟨.valueError, message⟩

def typeError (message : String) : PyError := ⟨.typeError, message⟩

def keyError : PyError := ⟨.keyError, ""⟩

/-- The functions of other packages. -/
structure Runtime where
  /-- `cbor2.loads`; `none` when it raises. -/
  loads : Bytes → Option Value
  /-- `cbor2.dumps(_, canonical=True)`; `none` when it raises. -/
  dumps : Value → Option Bytes
  /-- `hashlib.sha256(_).digest()`. -/
  sha256 : Bytes → Bytes
  sha256_length : ∀ b, (sha256 b).length = 32
  /-- `Ed25519PublicKey.from_bytes(key).verify(message, signature)`. -/
  ed25519Verify : Bytes → Bytes → Bytes → Py Bool

/-- `cbor2` decodes what it encoded, for plain values. -/
def Runtime.RoundTrips (rt : Runtime) : Prop :=
  ∀ v b, Plain v → rt.dumps v = some b → rt.loads b = some v

/-! ## Built-in conversions -/

/-- `d[n]`. -/
def getItem (d : Dict) (n : Int) : Py Value := orRaise (d.get? n) keyError

/-- `bytes(v)`. A non-negative integer gives that many zero bytes, a list or a dictionary the
bytes its elements or keys name. -/
def toBytes : Value → Py Bytes
  | .atom (.bytes b) => .ok b
  | .atom (.int i) =>
    if 0 ≤ i then .ok (List.replicate i.toNat 0) else .error (valueError "negative count")
  | .atom (.bool b) => .ok (if b then [0] else [])
  | .atom (.other _) => .error ⟨.external, ""⟩
  | .atom _ => .error (typeError "cannot convert to bytes")
  | .list xs => xs.mapM fun
    | .atom a => byteOf a
    | _ => .error (typeError "object cannot be interpreted as an integer")
  | .dict d => d.mapM fun e => byteOf e.1
where
  /-- One element of an iterable of integers. -/
  byteOf (a : Atom) : Py UInt8 :=
    match a with
    | .int i =>
      if 0 ≤ i ∧ i < 256 then .ok (UInt8.ofNat i.toNat)
      else .error (valueError "bytes must be in range(0, 256)")
    | .bool b => .ok (if b then 1 else 0)
    | _ => .error (typeError "object cannot be interpreted as an integer")

@[simp] theorem toBytes_bytes (b : Bytes) : toBytes (.atom (.bytes b)) = .ok b := rfl

@[simp] theorem getItem_eq_ok {d : Dict} {n : Int} {v : Value} :
    getItem d n = .ok v ↔ d.get? n = some v := orRaise_eq_ok

/-! ## Hexadecimal -/

/-- The value of a hexadecimal digit. -/
def hexDigit? (c : Char) : Option ℕ :=
  if '0' ≤ c ∧ c ≤ '9' then some (c.toNat - '0'.toNat)
  else if 'a' ≤ c ∧ c ≤ 'f' then some (c.toNat - 'a'.toNat + 10)
  else if 'A' ≤ c ∧ c ≤ 'F' then some (c.toNat - 'A'.toNat + 10)
  else none

/-- `char in "0123456789ABCDEFabcdef"`. -/
def isHexDigit (c : Char) : Bool := (hexDigit? c).isSome

/-- ASCII whitespace, which `bytes.fromhex` skips between bytes. -/
def isAsciiSpace (c : Char) : Bool := c = ' ' ∨ ('\t' ≤ c ∧ c ≤ '\r')

/-- `bytes.fromhex(s)`; `none` when it raises. -/
def fromHex? : Text → Option Bytes
  | [] => some []
  | [c] => if isAsciiSpace c then some [] else none
  | c :: d :: rest =>
    if isAsciiSpace c then fromHex? (d :: rest)
    else do
      let hi ← hexDigit? c
      let lo ← hexDigit? d
      let bytes ← fromHex? rest
      some (UInt8.ofNat (16 * hi + lo) :: bytes)

/-- `bytes.fromhex(s)`. -/
def fromHex (s : Text) : Py Bytes :=
  orRaise (fromHex? s) (valueError "non-hexadecimal number found in fromhex() arg")

/-- The lower-case digit of a number below 16. -/
def hexChar (n : ℕ) : Char :=
  if n < 10 then Char.ofNat ('0'.toNat + n) else Char.ofNat ('a'.toNat + (n - 10))

/-- `b.hex()`. -/
def toHex (b : Bytes) : Text := b.flatMap fun x => [hexChar (x.toNat / 16), hexChar (x.toNat % 16)]

end DecentRegistry
