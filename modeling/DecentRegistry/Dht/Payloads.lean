import DecentRegistry.Model.Dht.Envelopes
import DecentRegistry.Provider.WithdrawalAuthority

/-!
# Withdrawals as the adapter recognizes them

The adapter takes an envelope for a withdrawal when its payload decodes as a tombstone
(`isProviderWithdrawalEnvelope_iff`), before it is validated. What the validator then returns of it
is a withdrawal too, on the write path (`validateProviderOverwrite_of_payload`) as on the read path
(`validateProviderGet_of_payload`).
-/

namespace DecentRegistry

open Fallible PyValue

variable {rt : Runtime}

/-- The payload of an envelope. -/
def payloadOf (rt : Runtime) (e : Bytes) : Py ProviderPayload := do
  let signedUpdate ← decodeCanonicalSignedUpdate rt (← signedUpdateOf rt e)
  decodeProviderPayloadDict signedUpdate.payload

theorem isProviderWithdrawalEnvelope_iff {e : Bytes} :
    isProviderWithdrawalEnvelope rt (some e) = true ↔
      ∃ tombstone, payloadOf rt e = .ok (.withdrawn tombstone) := by
  have hsame : isProviderWithdrawalEnvelope rt (some e) =
      match payloadOf rt e with
      | .ok payload => payload.isWithdrawn
      | .error _ => false := by
    simp only [isProviderWithdrawalEnvelope, payloadOf]
    cases signedUpdateOf rt e with
    | error _ => rfl
    | ok bytes =>
      simp only [ok_bind]
      cases decodeCanonicalSignedUpdate rt bytes with
      | error _ => rfl
      | ok u =>
        simp only [ok_bind]
        cases decodeProviderPayloadDict u.payload <;> rfl
  rw [hsame]
  rcases payloadOf rt e with _ | ⟨_ | _⟩ <;> simp [ProviderPayload.isWithdrawn]

theorem payloadOf_of_reading {e : Bytes} {reading : ProviderReading}
    (h : readAsProvider rt e = .ok reading) : payloadOf rt e = .ok reading.payload := by
  simp only [readAsProvider, payloadOf, bind_eq_ok, pure_eq_ok] at h ⊢
  obtain ⟨bytes, hbytes, u, hu, payload, hpayload, _, -, _, -, rfl⟩ := h
  exact ⟨bytes, hbytes, u, hu, hpayload⟩

theorem payloadOf_of_multisignature {e : Bytes} {env : MultisignatureEnvelope}
    {u : MultisignatureUpdate} (henv : decodeMultisignatureEnvelope rt e = .ok env)
    (hu : decodeMultisignatureSignedUpdate rt env.signedUpdateBytes = .ok u) :
    payloadOf rt e = decodeProviderPayloadDict u.payload := by
  simp only [payloadOf, signedUpdateOf, isMultisignatureEnvelope_of_decode henv, if_true, henv,
    ok_bind, pure, Except.pure, decodeMultisignatureSignedUpdate_eq_ok.1 hu]

/-- A withdrawal is returned as one, with the predecessor it was validated with, and an active
record is not. -/
def ReturnsPayload (existing : Option Bytes) (r : ProviderRead) : ProviderPayload → Prop
  | .withdrawn _ => ∃ result, r = .withdrawn result ∧ result.predecessorEnvelopeCbor = existing
  | .active _ => ∀ result, r ≠ .withdrawn result

theorem validateProviderGet_of_payload {recordKey e : Bytes} {existing : Option Bytes}
    {r : ProviderRead} {payload : ProviderPayload}
    (h : validateProviderGet rt recordKey e existing = .ok r)
    (hpayload : payloadOf rt e = .ok payload) : ReturnsPayload existing r payload := by
  unfold validateProviderGet at h
  split at h
  · simp only [validateMultisignatureProviderGet, bind_eq_ok] at h
    obtain ⟨env, henv, u, hu, payload', hpayload', h⟩ := h
    rw [payloadOf_of_multisignature henv hu] at hpayload
    obtain rfl := Except.ok.inj (hpayload.symm.trans hpayload')
    cases payload with
    | withdrawn _ =>
      simp only [bind_eq_ok, orRaise_eq_ok, pure_eq_ok] at h
      obtain ⟨x, rfl, _, -, _, -, rfl⟩ := h
      exact ⟨_, rfl, rfl⟩
    | active _ =>
      simp only [bind_eq_ok, pure_eq_ok] at h
      obtain ⟨_, -, _, -, rfl⟩ := h
      simp [ReturnsPayload]
  · obtain ⟨legacy, ⟨owner, payload', seq⟩, hreads, hreading, -, rfl⟩ :=
      validateLegacyProviderGet_eq_ok.1 h
    obtain rfl := Except.ok.inj (hpayload.symm.trans (payloadOf_of_reading hreading))
    cases payload with
    | withdrawn _ => exact ⟨_, rfl, rfl⟩
    | active _ => simp [ReturnsPayload, ProviderReading.result]

/-- The write path returns a withdrawal exactly of the envelopes the adapter takes for one. -/
theorem validateProviderOverwrite_of_payload {recordKey e : Bytes} {existing : Option Bytes}
    {w : ProviderWrite} (h : validateProviderOverwrite rt recordKey e existing = .ok w) :
    isProviderWithdrawalEnvelope rt (some e) = true ↔ ∃ r, w = .withdrawn r := by
  rw [isProviderWithdrawalEnvelope_iff]
  unfold validateProviderOverwrite at h
  split at h
  · simp only [validateMultisignatureProviderOverwrite, bind_eq_ok] at h
    obtain ⟨s, htransition, u, hu, payload, hpayload, h⟩ := h
    obtain ⟨p, history, _, _, hp, -, -, -, hs⟩ := validateMultisignatureTransition_spec htransition
    obtain rfl : p.update = u := Except.ok.inj ((hp.state hs).update.symm.trans hu)
    rw [payloadOf_of_multisignature hp.envelope (hp.signedUpdateBytes ▸ hp.update), hpayload]
    cases payload with
    | active _ =>
      simp only [bind_eq_ok, pure_eq_ok] at h
      obtain ⟨_, -, _, -, _, -, rfl⟩ := h
      simp
    | withdrawn _ =>
      simp only [bind_eq_ok, orRaise_eq_ok, pure_eq_ok] at h
      obtain ⟨_, -, _, -, _, -, _, -, _, -, _, -, _, -, _, -, _, -, _, -, _, -, _, -, rfl⟩ := h
      simp
  · obtain ⟨read, hread, -⟩ := validateLegacyProviderOverwrite_readback h
    obtain ⟨legacy, ⟨owner, payload, seq⟩, hreads, hreading, -, -⟩ :=
      validateLegacyProviderGet_eq_ok.1 hread
    obtain ⟨hpayload, -⟩ := hreads.provider_reading.1 hreading
    obtain ⟨signature, hsigned, -⟩ := hreads.signed
    rw [payloadOf_of_reading hreading]
    simp only [validateLegacyProviderOverwrite, hsigned, hreads.update, hpayload, bind_eq_ok,
      Except.ok.injEq, exists_eq_left'] at h
    obtain ⟨-, -, _, -, _, -, _, -, h⟩ := h
    cases payload with
    | active _ =>
      obtain rfl := pure_eq_ok.1 h
      simp
    | withdrawn _ =>
      simp only [bind_eq_ok] at h
      obtain ⟨x, -, h⟩ := h
      split at h <;>
        · simp only [bind_eq_ok, pure_eq_ok] at h
          obtain ⟨_, -, _, -, _, -, rfl⟩ := h
          simp

end DecentRegistry
