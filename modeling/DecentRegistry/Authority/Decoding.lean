import DecentRegistry.Foundations.Replay
import DecentRegistry.Model.RecordValidator

/-!
# What decoding guarantees

The facts about decoded values that the transitions rely on and do not check again:

* `CanonicalSigners`, the discipline of a signer set: distinct identifiers, distinct 32-byte keys,
  canonical order (`decodeMultisignatureSignedUpdate_authorization`);
* `RecordBinding`, the record fields of each record kind;
* `decodeMultisignatureCandidate_spec`, how the parts of a candidate determine each other, and
  `candidateState_eq_ok`, the state it becomes.
-/

namespace DecentRegistry

open Fallible PyValue

/-! ## Signer sets -/

/-- The discipline of a signer set. -/
structure CanonicalSigners (signers : List SignerEntry) : Prop where
  ids_nodup : (signers.map (·.signerId)).Nodup
  keys_nodup : (signers.map (·.publicKey)).Nodup
  key_length : ∀ entry ∈ signers, entry.publicKey.length = 32
  ordered : signers.Pairwise fun a b => signerSortKey a ≤ signerSortKey b

/-- What every validated authorization map satisfies. -/
structure Authorization.Canonical (a : Authorization) : Prop where
  signers : CanonicalSigners a.signerSet
  threshold_pos : 1 ≤ a.threshold
  threshold_le : a.threshold ≤ a.signerSet.length
  predecessor_length : a.predecessorStateHash.length = 32

theorem readSignerEntry_key_length {v : Value} {entry : SignerEntry}
    (h : readSignerEntry v = .ok entry) : entry.publicKey.length = 32 := by
  simp [readSignerEntry] at h
  obtain ⟨_, -, -, _, -, -, -, _, -, key_length, rfl⟩ := h
  exact key_length

/-- The loop keeps identifiers and keys distinct. -/
theorem readSignerEntries_distinct {list : List Value} {acc signers : List SignerEntry}
    (h : readSignerEntries list acc = .ok signers)
    (ids : (acc.map (·.signerId)).Nodup) (keys : (acc.map (·.publicKey)).Nodup)
    (lengths : ∀ entry ∈ acc, entry.publicKey.length = 32) :
    (signers.map (·.signerId)).Nodup ∧ (signers.map (·.publicKey)).Nodup ∧
      ∀ entry ∈ signers, entry.publicKey.length = 32 := by
  induction list generalizing acc with
  | nil =>
    simp only [readSignerEntries, pure_eq_ok] at h
    subst h
    exact ⟨ids, keys, lengths⟩
  | cons v list ih =>
    simp only [readSignerEntries, bind_eq_ok, raiseIf_eq_ok] at h
    obtain ⟨entry, hentry, -, newId, -, newKey, hrest⟩ := h
    refine ih hrest ?_ ?_ ?_
    · simpa [List.nodup_append, ids] using fun e he hid => newId (List.mem_map.2 ⟨e, he, hid⟩)
    · simpa [List.nodup_append, keys] using fun e he hkey => newKey (List.mem_map.2 ⟨e, he, hkey⟩)
    · intro e he
      rcases List.mem_append.1 he with he | he
      · exact lengths e he
      · obtain rfl := List.mem_singleton.1 he
        exact readSignerEntry_key_length hentry

/-- Signers that are read sorted, or sorted when read, are canonical. -/
theorem validateSignerEntries_canonical {v : Value} {sortEntries : Bool}
    {signers : List SignerEntry}
    (h : validateSignerEntries v sortEntries (!sortEntries) = .ok signers) :
    CanonicalSigners signers := by
  simp [validateSignerEntries] at h
  obtain ⟨list, -, -, normalized, hread, hsorted, rfl⟩ := h
  obtain ⟨ids, keys, lengths⟩ :=
    readSignerEntries_distinct hread (by simp) (by simp) (by simp)
  have hperm := sortedBy_perm signerSortKey normalized
  have hsame : (if sortEntries then sortedBy signerSortKey normalized else normalized) =
      sortedBy signerSortKey normalized := by
    cases sortEntries with
    | true => rfl
    | false => exact hsorted rfl
  rw [hsame]
  exact
    { ids_nodup := (hperm.map _).nodup_iff.2 ids
      keys_nodup := (hperm.map _).nodup_iff.2 keys
      key_length := fun entry hentry => lengths entry (hperm.mem_iff.1 hentry)
      ordered := pairwise_sortedBy signerSortKey normalized }

theorem validateAuthorizationMap_canonical {v : Value} {sortSigners : Bool} {a : Authorization}
    (h : validateAuthorizationMap v sortSigners = .ok a) : a.Canonical := by
  simp [validateAuthorizationMap] at h
  obtain ⟨_, -, -, _, -, -, _, -, _, -, _, -, _, -, _, -, _, -, _, -, _, -, _, -, _, -, _, -,
    signerSet, hsigners, ⟨hpos, hle⟩, _, -, hlen, rfl⟩ := h
  exact ⟨validateSignerEntries_canonical hsigners, Nat.pos_of_ne_zero hpos, hle, hlen⟩

/-! ## SignedUpdates -/

/-- The record fields and payload of each record kind. -/
def RecordBinding (recordFields payload : Dict) : RecordKind → Prop
  | .identity => recordFields.keysAre [1, 2] = true ∧ payload = [] ∧
      ∃ ownerName ownerPublicKey, recordFields.get? 1 = some (.atom (.bytes ownerName)) ∧
        recordFields.get? 2 = some (.atom (.bytes ownerPublicKey)) ∧ ownerPublicKey.length = 32
  | .provider => recordFields.keysAre [1] = true ∧
      (∃ ownerPublicKey, recordFields.get? 1 = some (.atom (.bytes ownerPublicKey)) ∧
        ownerPublicKey.length = 32) ∧
      ∃ providerPayload, decodeProviderPayloadDict payload = .ok providerPayload

theorem validateRecordKindBinding_eq_ok {recordFields payload : Dict} {kind : RecordKind}
    {u : Unit} :
    validateRecordKindBinding recordFields payload kind = .ok u ↔
      RecordBinding recordFields payload kind := by
  cases kind <;> simp [validateRecordKindBinding, RecordBinding] <;> grind

/-- A record always has an Owner Public Key. -/
theorem RecordBinding.owner {recordFields payload : Dict} {kind : RecordKind}
    (h : RecordBinding recordFields payload kind) :
    ∃ owner, owner.length = 32 ∧ ownerPublicKeyField kind recordFields = .ok owner := by
  cases kind with
  | identity =>
    obtain ⟨-, -, -, owner, -, howner, hlen⟩ := h
    exact ⟨owner, hlen, by simp [ownerPublicKeyField, howner]⟩
  | provider =>
    obtain ⟨-, ⟨owner, howner, hlen⟩, -⟩ := h
    exact ⟨owner, hlen, by simp [ownerPublicKeyField, howner]⟩

variable {rt : Runtime}

theorem decodeCanonicalSignedUpdate_authorization {data : Bytes} {u : SignedUpdate}
    {a : Authorization} (h : decodeCanonicalSignedUpdate rt data = .ok u)
    (ha : u.authorization = some a) :
    a.Canonical ∧ RecordBinding u.recordFields u.payload a.recordKind := by
  simp [decodeCanonicalSignedUpdate, validateDecodedSignedUpdate] at h
  obtain ⟨-, map, -, -, fields, -, payload, -, -, -, _, -, seq, -, h⟩ := h
  split at h
  · obtain rfl := pure_eq_ok.1 h
    cases ha
  · simp [validateRecordKindBinding_eq_ok] at h
    obtain ⟨auth, hauth, binding, rfl⟩ := h
    obtain rfl := Option.some.inj ha
    exact ⟨validateAuthorizationMap_canonical hauth, binding⟩

theorem decodeMultisignatureSignedUpdate_eq_ok {data : Bytes} {u : MultisignatureUpdate} :
    decodeMultisignatureSignedUpdate rt data = .ok u ↔
      decodeCanonicalSignedUpdate rt data = .ok
        { recordFields := u.recordFields, payload := u.payload, seq := u.seq,
          authorization := some u.authorization } := by
  simp [decodeMultisignatureSignedUpdate]
  constructor
  · rintro ⟨⟨fields, payload, seq, auth⟩, hdecode, a, rfl, rfl⟩
    exact hdecode
  · intro h
    exact ⟨_, h, _, rfl, rfl⟩

/-- **Decoding establishes the discipline of the authorization map and of the record fields.** -/
theorem decodeMultisignatureSignedUpdate_canonical {data : Bytes} {u : MultisignatureUpdate}
    (h : decodeMultisignatureSignedUpdate rt data = .ok u) :
    u.authorization.Canonical ∧
      RecordBinding u.recordFields u.payload u.authorization.recordKind :=
  decodeCanonicalSignedUpdate_authorization (decodeMultisignatureSignedUpdate_eq_ok.1 h) rfl

/-! ## Envelopes -/

/-- A map has one shape only. -/
theorem keysAre_two_three {d : Dict} (h : d.keysAre [1, 2] = true) :
    d.keysAre [1, 2, 3] = false := by
  by_contra hne
  obtain ⟨v, hv⟩ := Dict.get?_of_keysAre (Bool.of_not_eq_false hne) (n := 3) (by simp)
  rw [Dict.get?_eq_none_of_keysAre h (by simp)] at hv
  cases hv

theorem isMultisignatureEnvelope_of_decode {e : Bytes} {env : MultisignatureEnvelope}
    (h : decodeMultisignatureEnvelope rt e = .ok env) : isMultisignatureEnvelope rt e = true := by
  simp [decodeMultisignatureEnvelope, loads] at h
  obtain ⟨-, map, hload, hkeys, -⟩ := h
  simp [isMultisignatureEnvelope, hload, hkeys]

/-- A legacy envelope is not a multisignature envelope. -/
theorem isMultisignatureEnvelope_of_legacy {e : Bytes} {x : Bytes × Bytes}
    (h : decodeSignedEnvelope rt e = .ok x) : isMultisignatureEnvelope rt e = false := by
  simp [decodeSignedEnvelope, loads] at h
  obtain ⟨-, map, hload, hkeys, -⟩ := h
  simp [isMultisignatureEnvelope, hload, keysAre_two_three hkeys]

/-! ## Candidates -/

/-- The decoded SignedUpdate of a candidate. -/
def Candidate.update (p : Candidate) : MultisignatureUpdate :=
  { recordFields := p.recordFields, payload := p.payload, seq := p.seq,
    authorization := p.authorization }

/-- How the parts of a candidate determine each other. -/
structure Candidate.Reads (rt : Runtime) (p : Candidate) (envelopeCbor : Bytes) : Prop where
  envelope : decodeMultisignatureEnvelope rt envelopeCbor = .ok p.envelope
  signedUpdateBytes : p.envelope.signedUpdateBytes = p.signedUpdateBytes
  update : decodeMultisignatureSignedUpdate rt p.signedUpdateBytes = .ok p.update
  recordKey : match p.authorization.recordKind with
    | .identity => ∃ owner,
        extractIdentityAndKeys rt p.recordFields = .ok (p.derivedRecordKey, owner)
    | .provider => ∃ owner,
        extractProviderAndKeys p.recordFields p.payload = .ok (p.derivedRecordKey, owner)

theorem decodeMultisignatureCandidate_eq_ok {e : Bytes} {p : Candidate} :
    decodeMultisignatureCandidate rt e = .ok p ↔ p.Reads rt e := by
  constructor
  · intro h
    simp only [decodeMultisignatureCandidate, bind_eq_ok] at h
    obtain ⟨env, henv, ⟨fields, payload, seq, auth⟩, hu, h⟩ := h
    cases hkind : auth.recordKind <;> simp [hkind] at h <;> obtain ⟨key, ⟨owner, hkey⟩, rfl⟩ := h
    · exact ⟨henv, rfl, hu, by simpa [hkind] using ⟨owner, hkey⟩⟩
    · exact ⟨henv, rfl, hu, by simpa [hkind] using ⟨owner, hkey⟩⟩
  · rintro ⟨henv, hbytes, hu, hkey⟩
    obtain ⟨bytes, env, fields, payload, seq, key, auth⟩ := p
    dsimp only at henv hbytes hu hkey
    subst hbytes
    simp only [decodeMultisignatureCandidate, henv, bind_eq_ok]
    refine ⟨env, rfl, _, hu, ?_⟩
    cases hkind : auth.recordKind <;> simp only [hkind] at hkey <;> obtain ⟨owner, hkey⟩ := hkey
    · simp [Candidate.update, hkind, hkey]
    · simp [Candidate.update, hkind, hkey]

namespace Candidate.Reads

variable {p : Candidate} {e : Bytes}

theorem unique {q : Candidate} (h : p.Reads rt e) (h' : q.Reads rt e) : p = q := by
  rw [← decodeMultisignatureCandidate_eq_ok] at h h'
  exact Except.ok.inj (h.symm.trans h')

theorem decode (h : p.Reads rt e) :
    decodeMultisignatureSignedUpdate rt p.envelope.signedUpdateBytes = .ok p.update := by
  rw [h.signedUpdateBytes]
  exact h.update

theorem canonical (h : p.Reads rt e) : p.authorization.Canonical :=
  (decodeMultisignatureSignedUpdate_canonical h.update).1

theorem binding (h : p.Reads rt e) :
    RecordBinding p.recordFields p.payload p.authorization.recordKind :=
  (decodeMultisignatureSignedUpdate_canonical h.update).2

theorem owner (h : p.Reads rt e) : ∃ owner, owner.length = 32 ∧
    ownerPublicKeyField p.authorization.recordKind p.recordFields = .ok owner := h.binding.owner

end Candidate.Reads

/-- The state a candidate becomes, given its Owner Public Key. -/
def Candidate.state (rt : Runtime) (p : Candidate) (recordKey owner : Bytes)
    (history : Option (List Bytes)) : MultisignatureState :=
  { recordKey, recordKind := p.authorization.recordKind, ownerPublicKey := owner,
    signedUpdateBytes := p.signedUpdateBytes, stateHash := rt.sha256 p.signedUpdateBytes,
    epoch := p.authorization.epoch, seq := p.seq, threshold := p.authorization.threshold,
    signerSet := p.authorization.signerSet,
    history := if p.authorization.recordKind = .identity then history else none }

theorem candidateState_eq_ok {p : Candidate} {recordKey : Bytes} {history : Option (List Bytes)}
    {s : MultisignatureState} :
    candidateState rt recordKey p history = .ok s ↔
      ∃ owner, ownerPublicKeyField p.authorization.recordKind p.recordFields = .ok owner ∧
        p.state rt recordKey owner history = s := by
  simp [candidateState, Candidate.state]

/-- How a state is read off the SignedUpdate it keeps. -/
structure MultisignatureState.Reads (rt : Runtime) (s : MultisignatureState)
    (u : MultisignatureUpdate) : Prop where
  update : decodeMultisignatureSignedUpdate rt s.signedUpdateBytes = .ok u
  recordKind : s.recordKind = u.authorization.recordKind
  owner : ownerPublicKeyField s.recordKind u.recordFields = .ok s.ownerPublicKey
  stateHash : s.stateHash = rt.sha256 s.signedUpdateBytes
  epoch : s.epoch = u.authorization.epoch
  seq : s.seq = u.seq
  threshold : s.threshold = u.authorization.threshold
  signerSet : s.signerSet = u.authorization.signerSet

/-- The state of a candidate reads as the candidate's SignedUpdate. -/
theorem Candidate.Reads.state {p : Candidate} {e recordKey : Bytes}
    {history : Option (List Bytes)} {s : MultisignatureState} (h : p.Reads rt e)
    (hs : candidateState rt recordKey p history = .ok s) : s.Reads rt p.update := by
  obtain ⟨owner, howner, rfl⟩ := candidateState_eq_ok.1 hs
  exact ⟨h.update, rfl, howner, rfl, rfl, rfl, rfl, rfl⟩

theorem MultisignatureState.Reads.canonical {s : MultisignatureState} {u : MultisignatureUpdate}
    (h : s.Reads rt u) : CanonicalSigners s.signerSet :=
  h.signerSet ▸ (decodeMultisignatureSignedUpdate_canonical h.update).1.signers

theorem candidateState_recordKey {p : Candidate} {recordKey : Bytes}
    {history : Option (List Bytes)} {s : MultisignatureState}
    (h : candidateState rt recordKey p history = .ok s) : s.recordKey = recordKey := by
  obtain ⟨owner, -, rfl⟩ := candidateState_eq_ok.1 h
  rfl

theorem candidateState_history {p : Candidate} {recordKey : Bytes}
    {history : Option (List Bytes)} {s : MultisignatureState}
    (h : candidateState rt recordKey p history = .ok s) :
    s.history = if s.recordKind = .identity then history else none := by
  obtain ⟨owner, -, rfl⟩ := candidateState_eq_ok.1 h
  rfl

end DecentRegistry
