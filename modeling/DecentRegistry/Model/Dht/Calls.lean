import DecentRegistry.Foundations.Scheduling
import DecentRegistry.Model.Dht.Provider

/-!
# Calls on one instance

The calls that touch the durable store of an instance, and what the world outside does: it answers
the requests of the tasks, hands the accepted-state lock to one task at a time, and changes its own
part of the state.
-/

namespace DecentRegistry

open PyValue Coroutine

/-- A call of a public method, or a value put by a peer. -/
inductive DhtCall
  | putIdentity (objectKeyHex : Text) (envelopeCbor : Bytes)
  | putIdentityIfCurrent (objectKeyHex : Text) (envelopeCbor : Bytes)
      (expectedStateHash : Option Bytes) (expiresAt : Int)
  | getIdentityEnvelope (objectKeyHex : Text) (quorum : ℕ)
  | getIdentityRecord (objectKeyHex : Text) (quorum : ℕ)
  | confirmRotation (ownerNameHex : Text) (expectedEnvelope : Bytes)
  | putProvider (objectHash : Text) (envelopeCbor : Bytes)
  | getProvider (objectHash : Text) (quorum : ℕ)
  | inboundPut (key value : Bytes)

variable (rt : Runtime) (d : DhtInstance)

/-- The task of a call. Its result goes to the caller. -/
def DhtCall.task : DhtCall → Dht Unit
  | .putIdentity objectKeyHex envelopeCbor => putSignedIdentityRecord rt d objectKeyHex envelopeCbor
  | .putIdentityIfCurrent objectKeyHex envelopeCbor expectedStateHash expiresAt =>
    putSignedIdentityRecordIfCurrent rt d objectKeyHex envelopeCbor expectedStateHash expiresAt
  | .getIdentityEnvelope objectKeyHex quorum => do
    let _ ← DecentRegistry.getIdentityEnvelope rt d objectKeyHex quorum
  | .getIdentityRecord objectKeyHex quorum => do
    let _ ← getSignedIdentityRecord rt d objectKeyHex quorum
  | .confirmRotation ownerNameHex expectedEnvelope => do
    let _ ← confirmIdentityOwnerKeyRotation rt d ownerNameHex expectedEnvelope
  | .putProvider objectHash envelopeCbor => putSignedProviderRecord rt d objectHash envelopeCbor
  | .getProvider objectHash quorum => do
    let _ ← getSignedProviderRecord rt d objectHash quorum
  | .inboundPut key value => DecentRegistry.inboundPut rt d key value

/-- The world outside changes its own part of the state. -/
def Drifts (s t : DhtState) : Prop := t.durable = s.durable ∧ t.acceptedLock = s.acceptedLock

/-- How a request is answered. The lock is given when it is free; the DHT and the peers may answer,
or fail with, anything. -/
def Answered (q : Request) (s : DhtState) (r : Py q.Answer) (t : DhtState) : Prop :=
  match q, r with
  | .acceptedLock, .ok _ => s.acceptedLock = false ∧ t = { s with acceptedLock := true }
  | _, _ => Drifts s t

theorem Answered.sameDurable {q : Request} {s t : DhtState} {r : Py q.Answer}
    (h : Answered q s r t) : t.durable = s.durable := by
  unfold Answered at h
  split at h
  · rw [h.2]
  · exact h.1

/-- The calls made in a state, and the answers given in it, that are considered. -/
def dhtSchedule (calls : DhtState → DhtCall → Prop)
    (answers : (q : Request) → DhtState → Py q.Answer → Prop) :
    Schedule DhtState Request Request.Answer PyError where
  callable s p := ∃ call, calls s call ∧ p = call.task rt d
  answers q s r t := answers q s r ∧ Answered q s r t
  drifts := Drifts

end DecentRegistry
