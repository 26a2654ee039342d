import DecentRegistry.Foundations.DistinctReading
import DecentRegistry.Foundations.OrderedValue
import DecentRegistry.Model.SignedEnvelope

/-!
# What the validators read

Signer entries, authorization maps and proofs are read off dictionaries. `SignerEntry.IsRead`,
`Authorization.IsRead` and `Proof.IsRead` say of what; `validateSignerEntries_eq_ok`,
`validateAuthorizationMap_eq_ok` and `validateProofs_eq_ok` say that the validators accept exactly
what can be read, with distinct signers, and sort it or demand that it is sorted.
-/

namespace DecentRegistry

open Fallible PyValue DistinctReading

/-! ## Signer entries -/

/-- The signer entry is what the dictionary holds. -/
structure SignerEntry.IsRead (entry : SignerEntry) (map : Dict) : Prop where
  keys : map.keysAre [1, 2] = true
  signerId : map.get? 1 = some (.atom (.text entry.signerId))
  nonempty : entry.signerId ≠ []
  bounded : (utf8 entry.signerId).length ≤ 256
  publicKey : map.get? 2 = some (.atom (.bytes entry.publicKey))
  length : entry.publicKey.length = 32

theorem readSignerEntry_eq_ok {v : Value} {entry : SignerEntry} :
    readSignerEntry v = .ok entry ↔ ∃ map, v = .dict map ∧ entry.IsRead map := by
  simp only [readSignerEntry, bind_eq_ok, orRaise_eq_ok, raiseIf_eq_ok, getItem_eq_ok, pure_eq_ok,
    Value.asDict?_eq_some, Value.asText?_eq_some, Value.asBytes?_eq_some, exists_const]
  constructor
  · rintro ⟨map, rfl, hkeys, _, hid, signerId, rfl, hne, hle, _, hkey, publicKey, rfl, hlen, rfl⟩
    exact ⟨map, rfl, by simpa using hkeys, hid, by simpa using hne, by simpa using hle, hkey,
      by simpa using hlen⟩
  · rintro ⟨map, rfl, h⟩
    exact ⟨map, rfl, by simp [h.keys], _, h.signerId, _, rfl, by simpa using h.nonempty,
      by simpa using h.bounded, _, h.publicKey, _, rfl, by simpa using h.length, rfl⟩

/-- Two signers have neither the identifier nor the key in common. -/
def SignerEntry.Apart (a b : SignerEntry) : Prop :=
  a.signerId ≠ b.signerId ∧ a.publicKey ≠ b.publicKey

/-- The signers are what the list holds, and are pairwise apart. -/
structure ReadsSigners (list : List Value) (signers : List SignerEntry) : Prop where
  reads : List.Forall₂ (fun v entry => readSignerEntry v = .ok entry) list signers
  apart : signers.Pairwise SignerEntry.Apart

theorem readSignerEntries_eq_ok {list : List Value} {signers : List SignerEntry} :
    readSignerEntries list [] = .ok signers ↔ ReadsSigners list signers := by
  have hloop := @collect_eq_ok _ _ _ (fun v entry => readSignerEntry v = .ok entry)
    SignerEntry.Apart readSignerEntries (fun acc => rfl) ?_ list [] signers .nil
  · rw [hloop]
    constructor
    · rintro ⟨l, rfl, hreads, hapart⟩
      exact ⟨hreads, hapart⟩
    · rintro ⟨hreads, hapart⟩
      exact ⟨signers, rfl, hreads, hapart⟩
  · intro v vs acc out
    simp only [readSignerEntries, bind_eq_ok, raiseIf_eq_ok, exists_const, List.mem_map, not_exists,
      not_and, SignerEntry.Apart]
    constructor
    · rintro ⟨entry, hentry, hids, hkeys, hrest⟩
      exact ⟨entry, hentry, fun x hx => ⟨hids x hx, hkeys x hx⟩, hrest⟩
    · rintro ⟨entry, hentry, hapart, hrest⟩
      exact ⟨entry, hentry, fun x hx => (hapart x hx).1, fun x hx => (hapart x hx).2, hrest⟩

theorem validateSignerEntries_eq_ok {v : Value} {sortEntries : Bool} {signers : List SignerEntry} :
    validateSignerEntries v sortEntries (!sortEntries) = .ok signers ↔
      ∃ list read, v = .list list ∧ list ≠ [] ∧ ReadsSigners list read ∧
        signers = sortedBy signerSortKey read ∧ (sortEntries = false → signers = read) := by
  simp only [validateSignerEntries, bind_eq_ok, orRaise_eq_ok, raiseIf_eq_ok, pure_eq_ok,
    Value.asList?_eq_some, exists_const, readSignerEntries_eq_ok]
  constructor
  · rintro ⟨list, rfl, hne, read, hread, hsorts⟩
    exact ⟨list, read, rfl, by simpa using hne, hread, sorts_or_demands.1 hsorts⟩
  · rintro ⟨list, read, rfl, hne, hread, hsorts⟩
    exact ⟨list, rfl, by simpa using hne, read, hread, sorts_or_demands.2 hsorts⟩

/-! ## Authorization maps -/

@[simp] theorem RecordKind.ofCode?_eq_some {n : ℕ} {kind : RecordKind} :
    RecordKind.ofCode? n = some kind ↔ n = kind.code := by
  constructor
  · intro h
    unfold RecordKind.ofCode? at h
    split at h <;> cases h <;> rfl
  · rintro rfl
    cases kind <;> rfl

@[simp] theorem Operation.ofCode?_eq_some {n : ℕ} {operation : Operation} :
    Operation.ofCode? n = some operation ↔ n = operation.code := by
  constructor
  · intro h
    unfold Operation.ofCode? at h
    split at h <;> cases h <;> rfl
  · rintro rfl
    cases operation <;> rfl

theorem requireUint_eq_ok {v : Value} {name : String} {n : ℕ} :
    requireUint v name = .ok n ↔ v = natValue n := by
  simp only [requireUint, bind_eq_ok, orRaise_eq_ok, raiseIf_eq_ok, pure_eq_ok, exists_const,
    Value.asInt?_eq_some, natValue]
  constructor
  · rintro ⟨i, rfl, hi, rfl⟩
    rw [Int.toNat_of_nonneg (not_lt.1 hi)]
  · rintro rfl
    exact ⟨n, rfl, by simp, by simp⟩

/-- The authorization is what the dictionary holds, with the signers in the order of the list. -/
structure Authorization.IsRead (a : Authorization) (map : Dict) (signerSet : List Value) :
    Prop where
  keys : map.keysAre [1, 2, 3, 4, 5, 6, 7] = true
  scheme : map.get? 1 = some (natValue a.scheme)
  supported : a.scheme = 1
  recordKind : map.get? 2 = some (natValue a.recordKind.code)
  operation : map.get? 3 = some (natValue a.operation.code)
  epoch : map.get? 4 = some (natValue a.epoch)
  threshold : map.get? 5 = some (natValue a.threshold)
  signers : map.get? 6 = some (.list signerSet)
  nonempty : signerSet ≠ []
  reads : ReadsSigners signerSet a.signerSet
  threshold_pos : 1 ≤ a.threshold
  threshold_le : a.threshold ≤ a.signerSet.length
  predecessor : map.get? 7 = some (.atom (.bytes a.predecessorStateHash))
  length : a.predecessorStateHash.length = 32

/-- The authorization with its signers in canonical order. -/
def Authorization.sorted (a : Authorization) : Authorization :=
  { a with signerSet := sortedBy signerSortKey a.signerSet }

theorem validateAuthorizationMap_eq_ok {v : Value} {sortSigners : Bool} {a : Authorization} :
    validateAuthorizationMap v sortSigners = .ok a ↔
      ∃ map signerSet read, v = .dict map ∧ Authorization.IsRead read map signerSet ∧
        a = read.sorted ∧ (sortSigners = false → a = read) := by
  simp only [validateAuthorizationMap, bind_eq_ok, orRaise_eq_ok, raiseIf_eq_ok, getItem_eq_ok,
    pure_eq_ok, Value.asDict?_eq_some, Value.asBytes?_eq_some, exists_const, requireUint_eq_ok,
    validateSignerEntries_eq_ok, RecordKind.ofCode?_eq_some, Operation.ofCode?_eq_some]
  constructor
  · rintro ⟨map, rfl, hkeys, _, h₁, scheme, rfl, hscheme, _, h₂, _, rfl, kind, rfl, _, h₃, _, rfl,
      operation, rfl, _, h₄, epoch, rfl, _, h₅, threshold, rfl, _, h₆, signerSet,
      ⟨list, read, rfl, hne, hread, rfl, hsame⟩, hthreshold, _, h₇, hash, rfl, hlen, rfl⟩
    have hlength : (sortedBy signerSortKey read).length = read.length :=
      (sortedBy_perm signerSortKey read).length_eq
    refine ⟨map, list, ⟨scheme, kind, operation, epoch, threshold, read, hash⟩, rfl, ?_, rfl, ?_⟩
    · exact
        { keys := by simpa using hkeys
          scheme := h₁
          supported := not_not.1 hscheme
          recordKind := h₂
          operation := h₃
          epoch := h₄
          threshold := h₅
          signers := h₆
          nonempty := hne
          reads := hread
          threshold_pos := Nat.le_of_not_lt fun h => hthreshold (.inl h)
          threshold_le := hlength ▸ Nat.le_of_not_lt fun h => hthreshold (.inr h)
          predecessor := h₇
          length := not_not.1 hlen }
    · intro hsort
      rw [hsame hsort]
  · rintro ⟨map, list, read, rfl, h, rfl, hsame⟩
    have hlength : read.sorted.signerSet.length = read.signerSet.length :=
      (sortedBy_perm signerSortKey _).length_eq
    refine ⟨map, rfl, by simp [h.keys], _, h.scheme, _, rfl, by simp [h.supported], _, h.recordKind,
      _, rfl, _, rfl, _, h.operation, _, rfl, _, rfl, _, h.epoch, _, rfl, _, h.threshold, _, rfl, _,
      h.signers, read.sorted.signerSet,
        ⟨list, _, rfl, h.nonempty, h.reads, rfl, fun hsort => ?_⟩, ?_,
      _, h.predecessor, _, rfl, by simp [h.length], rfl⟩
    · rw [hsame hsort]
    · rw [hlength]
      have hpos := h.threshold_pos
      have hle := h.threshold_le
      omega

/-! ## Proofs -/

/-- The proof is what the dictionary holds. -/
structure Proof.IsRead (proof : Proof) (map : Dict) : Prop where
  keys : map.keysAre [1, 2] = true
  signerId : map.get? 1 =
    some (.atom (match proof.signerId with | none => .none | some t => .text t))
  bounded : ∀ t ∈ proof.signerId, t ≠ [] ∧ (utf8 t).length ≤ 256
  signature : map.get? 2 = some (.atom (.bytes proof.signature))
  length : proof.signature.length = 64

theorem readProofSignerId_eq_ok {v : Value} {signerId : Option Text} :
    readProofSignerId v = .ok signerId ↔
      v = .atom (match signerId with | none => .none | some t => .text t) ∧
        ∀ t ∈ signerId, t ≠ [] ∧ (utf8 t).length ≤ 256 := by
  constructor
  · intro h
    unfold readProofSignerId at h
    split at h
    · obtain rfl := pure_eq_ok.1 h
      simp
    · simp only [bind_eq_ok, raiseIf_eq_ok, exists_const, pure_eq_ok] at h
      obtain ⟨hne, hle, rfl⟩ := h
      simpa using ⟨by simpa using hne, by simpa using hle⟩
    · simp at h
  · rintro ⟨rfl, h⟩
    cases signerId with
    | none => rfl
    | some t =>
      obtain ⟨hne, hle⟩ := h t rfl
      simp [readProofSignerId, hne, hle]

/-- The proofs are what the list holds, and no two have the signer identifier in common. -/
structure ReadsProofs (list : List Value) (proofs : List Proof) : Prop where
  reads : List.Forall₂ (fun v proof => ∃ map, v = .dict map ∧ Proof.IsRead proof map) list proofs
  apart : proofs.Pairwise fun a b => a.signerId ≠ b.signerId

theorem readProofs_eq_ok {list : List Value} {proofs : List Proof} :
    readProofs list [] = .ok proofs ↔ ReadsProofs list proofs := by
  have hloop := @collect_eq_ok _ _ _ (fun v proof => ∃ map, v = .dict map ∧ Proof.IsRead proof map)
    (fun a b => a.signerId ≠ b.signerId) readProofs (fun acc => rfl) ?_ list [] proofs .nil
  · rw [hloop]
    constructor
    · rintro ⟨l, rfl, hreads, hapart⟩
      exact ⟨hreads, hapart⟩
    · rintro ⟨hreads, hapart⟩
      exact ⟨proofs, rfl, hreads, hapart⟩
  · intro v vs acc out
    simp only [readProofs, bind_eq_ok, orRaise_eq_ok, raiseIf_eq_ok, getItem_eq_ok, exists_const,
      Value.asDict?_eq_some, Value.asBytes?_eq_some, readProofSignerId_eq_ok, List.mem_map,
      not_exists, not_and]
    constructor
    · rintro ⟨map, rfl, hkeys, _, h₁, signerId, ⟨rfl, hid⟩, hnew, _, h₂, signature, rfl, hlen,
        hrest⟩
      exact ⟨⟨signerId, signature⟩,
        ⟨map, rfl, by simpa using hkeys, h₁, hid, h₂, not_not.1 hlen⟩, hnew, hrest⟩
    · rintro ⟨proof, ⟨map, rfl, h⟩, hnew, hrest⟩
      exact ⟨map, rfl, by simp [h.keys], _, h.signerId, proof.signerId, ⟨rfl, h.bounded⟩, hnew, _,
        h.signature, proof.signature, rfl, by simp [h.length], hrest⟩

/-- The validator of proofs, in its two uses: an encoder sorts, a decoder demands the order. -/
theorem validateProofs_eq_ok {v : Value} {sortProofs : Bool} {proofs : List Proof} :
    validateProofs v sortProofs (!sortProofs) = .ok proofs ↔
      ∃ list read, v = .list list ∧ ReadsProofs list read ∧
        proofs = sortedBy proofSortKey read ∧ (sortProofs = false → proofs = read) := by
  simp only [validateProofs, bind_eq_ok, orRaise_eq_ok, raiseIf_eq_ok, pure_eq_ok,
    Value.asList?_eq_some, exists_const, readProofs_eq_ok]
  constructor
  · rintro ⟨list, rfl, read, hread, hsorts⟩
    exact ⟨list, read, rfl, hread, sorts_or_demands.1 hsorts⟩
  · rintro ⟨list, read, rfl, hread, hsorts⟩
    exact ⟨list, rfl, read, hread, sorts_or_demands.2 hsorts⟩

end DecentRegistry
