import DecentRegistry.Foundations.FileSystem
import DecentRegistry.Foundations.Requests
import DecentRegistry.Model.Runtime

/-!
# Key generation

`crypto_utils.py`: an Ed25519 key is made from a seed of the system's random source and written to a
new file. The file-system calls are requests: `Performs` says what each may do, whether it returns
or fails. The local variables that the clean-up reads are part of the state. -/

namespace DecentRegistry

open PyValue Coroutine

/-- A raised exception: `KeyGenerationError`, an `OSError`, another `Exception`, or one that
`except Exception` does not catch. -/
inductive KeyFileError
  | keyGenerationError (message : String)
  | osError
  | exception
  | interrupt
  deriving DecidableEq

/-- Raised by a file-system call. -/
def KeyFileError.IsFailure : KeyFileError → Prop
  | .keyGenerationError _ => False
  | _ => True

/-! ## The private key -/

/-- `cryptography`: a private key from its seed, and its unencrypted PKCS#8 PEM bytes. -/
structure KeyPackages where
  PrivateKey : Type
  fromPrivateBytes : Bytes → Except KeyFileError PrivateKey
  privateBytes : PrivateKey → Except KeyFileError Bytes

/-- A source of entropy. -/
structure EntropyProvider where
  /-- `_is_system_csrng_provider` of it. -/
  isSystem : Bool
  /-- Its `token_bytes`, if it has a callable one; the value of a call is `none` if it is no byte
  string. -/
  tokenBytes : Option (ℕ → Except KeyFileError (Option Bytes))

/-- `_ED25519_SEED_LENGTH`. -/
def ed25519SeedLength : ℕ := 32

/-- `try: x except Exception: raise KeyGenerationError(message)`. -/
def orKeyGenerationError {α : Type} (x : Except KeyFileError α) (message : String) :
    Except KeyFileError α :=
  match x with
  | .ok a => .ok a
  | .error .interrupt => .error .interrupt
  | .error _ => .error (.keyGenerationError message)

/-- `except KeyGenerationError: raise` before that. -/
def orOtherKeyGenerationError {α : Type} (x : Except KeyFileError α) (message : String) :
    Except KeyFileError α :=
  match x with
  | .error (.keyGenerationError m) => .error (.keyGenerationError m)
  | x => orKeyGenerationError x message

variable (packages : KeyPackages) (system : EntropyProvider) (provider : Option EntropyProvider)

/-- `_secure_ed25519_seed`. -/
def secureEd25519Seed : Except KeyFileError Bytes := do
  if provider.isNone ∧ system.isSystem = false then
    throw (.keyGenerationError "secure randomness provider is unavailable")
  match (provider.getD system).tokenBytes with
  | none => throw (.keyGenerationError "secure randomness provider is unavailable")
  | some tokenBytes =>
    match ← orKeyGenerationError (tokenBytes ed25519SeedLength)
      "secure randomness provider failed" with
    | none => throw (.keyGenerationError "secure randomness provider returned invalid entropy")
    | some seed =>
      if seed.length ≠ ed25519SeedLength then
        throw (.keyGenerationError "secure randomness provider returned invalid entropy")
      return seed

/-- `generate_ed25519_private_key`. -/
def generateEd25519PrivateKey : Except KeyFileError packages.PrivateKey :=
  orOtherKeyGenerationError (do packages.fromPrivateBytes (← secureEd25519Seed system provider))
    "secure key generation failed"

/-- The PEM bytes of a generated key. -/
def generatePem : Except KeyFileError Bytes :=
  orOtherKeyGenerationError
    (do packages.privateBytes (← generateEd25519PrivateKey packages system provider))
    "key serialization failed"

/-! ## File-system calls -/

/-- A call of `tempfile`, of `os`, of the file object over a descriptor, or `path.exists()`. A
descriptor is the number of the file it is open on. -/
inductive FileCall
  | mkstemp (directory : Text) (namePrefix : Text)
  | chmod (fileDescriptor : ℕ) (mode : ℕ)
  | fdopen (fileDescriptor : ℕ)
  | write (fileDescriptor : ℕ) (data : Bytes)
  | flush (fileDescriptor : ℕ)
  | fsync (fileDescriptor : ℕ)
  | closeOutput (fileDescriptor : ℕ)
  | link (source destination : FilePath)
  | unlink (path : FilePath)
  | pathExists (path : FilePath)
  | close (fileDescriptor : ℕ)

abbrev FileCall.Answer : FileCall → Type
  | .mkstemp _ _ => ℕ × FilePath
  | .pathExists _ => Bool
  | _ => Unit

/-- The file system, the bytes `output` has not written yet, and the local variables. -/
structure KeyFileState where
  files : FileSystem
  buffer : Bytes
  fileDescriptor : Option ℕ
  temporaryPath : Option FilePath

/-- Give a file another mode. -/
def Node.setMode (mode : ℕ) : Node → Node
  | .file _ content => .file mode content
  | other => other

/-- Write bytes behind those a file has. -/
def Node.append (bytes : Bytes) : Node → Node
  | .file mode content => .file mode (content ++ bytes)
  | other => other

/-- The first `n` bytes of the buffer reach the file. -/
def KeyFileState.writeOut (s : KeyFileState) (fileDescriptor n : ℕ) : KeyFileState :=
  { s with
    files := s.files.change fileDescriptor (Node.append (s.buffer.take n))
    buffer := s.buffer.drop n }

/-- What a call may do. A call that fails changes nothing, except that some of the bytes to be
written may have reached the file. `mkstemp` makes a new file under a new name that starts with the
prefix, `link` fails if the destination exists, and a symbolic link may lead nowhere. -/
def Performs (q : FileCall) (s : KeyFileState) (r : Except KeyFileError q.Answer)
    (t : KeyFileState) : Prop :=
  match q, r with
  | .mkstemp directory namePrefix, .ok (fileDescriptor, path) =>
    fileDescriptor = s.files.nodes.length ∧ path.parent = directory ∧ namePrefix <+: path.name ∧
      s.files.entries path = none ∧ t = { s with files := s.files.create path 0o600 }
  | .chmod fileDescriptor mode, .ok _ =>
    t = { s with files := s.files.change fileDescriptor (Node.setMode mode) }
  | .fdopen _, .ok _ => t = { s with buffer := [] }
  | .write fileDescriptor data, .ok _ =>
    ∃ n, t = { s with buffer := s.buffer ++ data }.writeOut fileDescriptor n
  | .write fileDescriptor data, .error e =>
    e.IsFailure ∧ ∃ n buffer,
      t = { { s with buffer := s.buffer ++ data }.writeOut fileDescriptor n with buffer }
  | .flush fileDescriptor, .ok _ => t = s.writeOut fileDescriptor s.buffer.length
  | .flush fileDescriptor, .error e => e.IsFailure ∧ ∃ n, t = s.writeOut fileDescriptor n
  | .closeOutput fileDescriptor, .ok _ => t = s.writeOut fileDescriptor s.buffer.length
  | .closeOutput fileDescriptor, .error e => e.IsFailure ∧ ∃ n, t = s.writeOut fileDescriptor n
  | .link source destination, .ok _ =>
    s.files.entries source ≠ none ∧ s.files.entries destination = none ∧
      t = { s with files := s.files.link source destination }
  | .unlink path, .ok _ =>
    s.files.entries path ≠ none ∧ t = { s with files := s.files.unlink path }
  | .pathExists path, .ok found =>
    t = s ∧ (found = true → s.files.node path ≠ none) ∧
      (found = false → s.files.node path = none ∨
        ∃ target, s.files.node path = some (.symlink target))
  | _, .ok _ => t = s
  | _, .error e => e.IsFailure ∧ t = s

/-- Computations with file-system calls. -/
abbrev FileProgram (α : Type) := Coro KeyFileState FileCall FileCall.Answer KeyFileError α

/-- Make a call. -/
abbrev perform (call : FileCall) : FileProgram call.Answer := Coro.request call

/-! ## The key file -/

/-- What is done with `output`. -/
def writePem (fileDescriptor : ℕ) (pemBytes : Bytes) : FileProgram Unit := do
  Coro.modify fun s => { s with fileDescriptor := none }
  perform (.write fileDescriptor pemBytes)
  perform (.flush fileDescriptor)
  perform (.fsync fileDescriptor)

/-- `with os.fdopen(file_descriptor, "wb") as output`, which closes it in the end. -/
def writeOutput (fileDescriptor : ℕ) (pemBytes : Bytes) : FileProgram Unit := do
  perform (.fdopen fileDescriptor)
  (writePem fileDescriptor pemBytes).andFinally (perform (.closeOutput fileDescriptor))

/-- The temporary file, with the PEM bytes in it. -/
def writeTemporary (path : FilePath) (pemBytes : Bytes) : FileProgram FilePath := do
  let (fileDescriptor, temporaryPath) ← perform (.mkstemp path.parent ('.' :: path.name ++ ['.']))
  Coro.modify fun s =>
    { s with fileDescriptor := some fileDescriptor, temporaryPath := some temporaryPath }
  perform (.chmod fileDescriptor 0o600)
  writeOutput fileDescriptor pemBytes
  return temporaryPath

/-- The `try` block of `write_ed25519_private_key_pem`. -/
def createKeyFile (path : FilePath) (pemBytes : Bytes) : FileProgram Unit := do
  let temporaryPath ← writeTemporary path pemBytes
  perform (.link temporaryPath path)
  perform (.unlink temporaryPath)
  Coro.modify fun s => { s with temporaryPath := none }

/-- Its `except OSError` block. -/
def reportKeyFileError (path : FilePath) (e : KeyFileError) : FileProgram Unit := do
  if e = .osError then
    if ← perform (.pathExists path) then .raise (.keyGenerationError "key file already exists")
    else .raise (.keyGenerationError "cannot write key file")
  else .raise e

/-- `try: p except OSError: pass`. -/
def ignoringOsError (p : FileProgram Unit) : FileProgram Unit :=
  p.orHandle fun e => if e = .osError then return () else .raise e

/-- Close the descriptor, unless `output` has taken it over. -/
def closeDescriptor : FileProgram Unit := do
  match ← Coro.reads (·.fileDescriptor) with
  | none => return ()
  | some fileDescriptor => ignoringOsError (perform (.close fileDescriptor))

/-- Remove the temporary file, unless that is done. -/
def unlinkTemporary : FileProgram Unit := do
  match ← Coro.reads (·.temporaryPath) with
  | none => return ()
  | some temporaryPath => ignoringOsError (perform (.unlink temporaryPath))

/-- Its `finally` block. -/
def cleanUpKeyFile : FileProgram Unit := do
  closeDescriptor
  unlinkTemporary

/-- `write_ed25519_private_key_pem`. -/
def writeEd25519PrivateKeyPem (path : FilePath) : FileProgram Unit := do
  let pemBytes ← generatePem packages system provider
  Coro.modify fun s => { s with fileDescriptor := none, temporaryPath := none }
  ((createKeyFile path pemBytes).orHandle (reportKeyFileError path)).andFinally cleanUpKeyFile

end DecentRegistry
