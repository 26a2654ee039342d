import DecentRegistry.Authority.Decoding

/-!
# What a multisignature record is

A record has a fixed key and kind, an owner, an epoch, a sequence number and a 2-of-3 signer policy;
`SignerPolicy` cannot hold a set that is not one. `Head.Step` is what may happen to it: an ordinary
update raises the sequence number, a replacement of signers also raises the epoch and installs a
different policy, and a rotation, which only an Identity has, takes the next sequence number and
changes the owner. The theorems after it are the field discipline of the record, one field each.
-/

namespace DecentRegistry.Abstract

open PyValue

/-- Three signers, in canonical form, of whom two authorize. -/
structure SignerPolicy where
  signers : List SignerEntry
  canonical : CanonicalSigners signers
  size : signers.length = 3

/-- The accepted head of a record. -/
structure Head where
  recordKey : Bytes
  recordKind : RecordKind
  owner : Bytes
  epoch : ℕ
  seq : ℕ
  policy : SignerPolicy

namespace Head

/-- What each operation may do to a record. -/
inductive Step : Operation → Head → Head → Prop
  | ordinaryUpdate {h : Head} (seq : ℕ) (newer : h.seq < seq) :
      Step .ordinaryUpdate h { h with seq }
  | replaceSigners {h : Head} (seq epoch : ℕ) (policy : SignerPolicy) (newer : h.seq < seq)
      (later : h.epoch < epoch) (different : policy.signers ≠ h.policy.signers) :
      Step .replaceSigners h { h with seq, epoch, policy }
  | ownerKeyRotation {h : Head} (owner : Bytes) (identity : h.recordKind = .identity)
      (different : owner ≠ h.owner) :
      Step .ownerKeyRotation h { h with seq := h.seq + 1, owner }

variable {op : Operation} {h h' : Head}

theorem Step.recordKey (s : Step op h h') : h'.recordKey = h.recordKey := by cases s <;> rfl

theorem Step.recordKind (s : Step op h h') : h'.recordKind = h.recordKind := by cases s <;> rfl

theorem Step.seq_lt (s : Step op h h') : h.seq < h'.seq := by
  cases s with
  | ordinaryUpdate seq newer => exact newer
  | replaceSigners seq epoch policy newer => exact newer
  | ownerKeyRotation => exact Nat.lt_succ_self _

theorem Step.epoch_le (s : Step op h h') : h.epoch ≤ h'.epoch := by
  cases s with
  | replaceSigners seq epoch policy newer later => exact Nat.le_of_lt later
  | _ => exact Nat.le_refl _

theorem Step.epoch_eq (s : Step op h h') (hop : op ≠ .replaceSigners) : h'.epoch = h.epoch := by
  cases s with
  | replaceSigners => exact absurd rfl hop
  | _ => rfl

theorem Step.policy_eq (s : Step op h h') (hop : op ≠ .replaceSigners) : h'.policy = h.policy := by
  cases s with
  | replaceSigners => exact absurd rfl hop
  | _ => rfl

theorem Step.owner_eq (s : Step op h h') (hop : op ≠ .ownerKeyRotation) : h'.owner = h.owner := by
  cases s with
  | ownerKeyRotation => exact absurd rfl hop
  | _ => rfl

/-- What a replacement of signers changes. -/
theorem Step.replaceSigners_spec (s : Step .replaceSigners h h') :
    h.epoch < h'.epoch ∧ h'.policy.signers ≠ h.policy.signers := by
  cases s with
  | replaceSigners seq epoch policy newer later different => exact ⟨later, different⟩

/-- What a rotation changes. -/
theorem Step.ownerKeyRotation_spec (s : Step .ownerKeyRotation h h') :
    h.recordKind = .identity ∧ h'.seq = h.seq + 1 ∧ h'.owner ≠ h.owner := by
  cases s with
  | ownerKeyRotation owner identity different => exact ⟨identity, rfl, different⟩

end Head

end DecentRegistry.Abstract
