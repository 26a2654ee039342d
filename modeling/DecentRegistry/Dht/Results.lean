import DecentRegistry.Authority.Chain
import DecentRegistry.Authority.Legacy
import DecentRegistry.Authority.Standalone
import DecentRegistry.Model.Dht.Envelopes

/-!
# What a validated result says of its envelope

The adapter reads the sequence number and the SignedUpdate of an envelope itself (`IsHead`), without
the validator's checks, and takes the sequence number and state hash it records from the validator's
result. For an envelope that was validated the two are the same (`Describes`).
-/

namespace DecentRegistry

open Fallible PyValue Replay

variable {rt : Runtime}

/-- What the adapter reads of an envelope. -/
structure IsHead (rt : Runtime) (e : Bytes) (n : ℕ) (b : Bytes) : Prop where
  seq : envelopeSeq rt e = .ok n
  signedUpdateBytes : envelopeSignedUpdateBytes rt e = .ok b

/-! ## Envelopes that decode -/

theorem envelopeSignedUpdateBytes_eq_ok {e b : Bytes} :
    envelopeSignedUpdateBytes rt e = .ok b ↔ ∃ map : Dict, loads rt e = .ok (.dict map) ∧
      (map.keysAre [1, 2] = true ∧ map.get? 1 = some (.atom (.bytes b)) ∨
        map.keysAre [1, 2] = false ∧ map.keysAre [1, 2, 3] = true ∧
          map.get? 2 = some (.atom (.bytes b))) := by
  simp only [envelopeSignedUpdateBytes, bind_eq_ok, orRaise_eq_ok, Value.asDict?_eq_some,
    Value.asBytes?_eq_some]
  constructor
  · rintro ⟨_, hload, map, rfl, v, hv, rfl⟩
    refine ⟨map, hload, ?_⟩
    split at hv
    · exact .inl ⟨‹_›, getItem_eq_ok.1 hv⟩
    · split at hv
      · exact .inr ⟨Bool.of_not_eq_true ‹_›, ‹_›, getItem_eq_ok.1 hv⟩
      · simp at hv
  · rintro ⟨map, hload, ⟨hkeys, hget⟩ | ⟨hnot, hkeys, hget⟩⟩
    · exact ⟨_, hload, map, rfl, _, by simpa [hkeys] using hget, rfl⟩
    · exact ⟨_, hload, map, rfl, _, by simpa [hnot, hkeys] using hget, rfl⟩

theorem envelopeSeq_eq_ok {e : Bytes} {n : ℕ} :
    envelopeSeq rt e = .ok n ↔ ∃ b v, envelopeSignedUpdateBytes rt e = .ok b ∧
      loads rt b = .ok v ∧ subscript v 3 = some (.atom (.int n)) := by
  simp only [envelopeSeq, bind_eq_ok, orRaise_eq_ok, Value.asInt?_eq_some, raiseIf_eq_ok, not_lt,
    pure_eq_ok]
  constructor
  · rintro ⟨b, hb, v, hv, _, hget, i, rfl, -, hnonneg, rfl⟩
    exact ⟨b, v, hb, hv, by rwa [Int.toNat_of_nonneg hnonneg]⟩
  · rintro ⟨b, v, hb, hv, hget⟩
    exact ⟨b, hb, v, hv, _, hget, n, rfl, (), Int.natCast_nonneg n, rfl⟩

theorem envelopeSignedUpdateBytes_of_multisignature {e : Bytes} {env : MultisignatureEnvelope}
    (h : decodeMultisignatureEnvelope rt e = .ok env) :
    envelopeSignedUpdateBytes rt e = .ok env.signedUpdateBytes := by
  simp [decodeMultisignatureEnvelope] at h
  obtain ⟨-, map, hload, hkeys, -, _, hbytes, -, _, -, _, -, rfl⟩ := h
  have hnot : map.keysAre [1, 2] = false := by
    by_contra hne
    rw [keysAre_two_three (Bool.of_not_eq_false hne)] at hkeys
    cases hkeys
  exact envelopeSignedUpdateBytes_eq_ok.2 ⟨map, hload, .inr ⟨hnot, hkeys, hbytes⟩⟩

theorem envelopeSignedUpdateBytes_of_legacy {e : Bytes} {x : Bytes × Bytes}
    (h : decodeSignedEnvelope rt e = .ok x) : envelopeSignedUpdateBytes rt e = .ok x.1 := by
  simp [decodeSignedEnvelope] at h
  obtain ⟨-, map, hload, hkeys, _, hbytes, _, -, -, rfl⟩ := h
  exact envelopeSignedUpdateBytes_eq_ok.2 ⟨map, hload, .inl ⟨hkeys, hbytes⟩⟩

/-- A SignedUpdate that decodes keeps its sequence number under the key 3. -/
theorem subscript_of_update {b : Bytes} {u : SignedUpdate}
    (h : decodeCanonicalSignedUpdate rt b = .ok u) :
    ∃ v, loads rt b = .ok v ∧ subscript v 3 = some (.atom (.int u.seq)) := by
  simp [decodeCanonicalSignedUpdate, validateDecodedSignedUpdate, requireUint] at h
  obtain ⟨-, map, hload, -, _, -, _, -, -, -, i, hi, hnonneg, h⟩ := h
  refine ⟨.dict map, hload, ?_⟩
  have hseq : u.seq = i.toNat := by
    split at h
    · exact (pure_eq_ok.1 h) ▸ rfl
    · simp only [bind_eq_ok, map_eq_ok] at h
      obtain ⟨_, -, _, -, rfl⟩ := h
      rfl
  rw [hseq, Int.toNat_of_nonneg hnonneg]
  exact hi

theorem isHead_of_update {e b : Bytes} {u : SignedUpdate}
    (h : envelopeSignedUpdateBytes rt e = .ok b) (hu : decodeCanonicalSignedUpdate rt b = .ok u) :
    IsHead rt e u.seq b := by
  obtain ⟨v, hv, hseq⟩ := subscript_of_update hu
  exact ⟨envelopeSeq_eq_ok.2 ⟨b, v, h, hv, hseq⟩, h⟩

theorem Candidate.Reads.isHead {p : Candidate} {e : Bytes} (h : p.Reads rt e) :
    IsHead rt e p.seq p.signedUpdateBytes := by
  have hbytes := envelopeSignedUpdateBytes_of_multisignature h.envelope
  rw [h.signedUpdateBytes] at hbytes
  exact isHead_of_update hbytes (decodeMultisignatureSignedUpdate_eq_ok.1 h.update)

theorem LegacyState.Reads.isHead {legacy : LegacyState} {recordKey e : Bytes}
    (h : legacy.Reads rt recordKey e) : IsHead rt e legacy.seq legacy.signedUpdateBytes := by
  obtain ⟨_, hsigned, -⟩ := h.signed
  exact isHead_of_update (envelopeSignedUpdateBytes_of_legacy hsigned) h.update

/-! ## The newer of two envelopes -/

/-- The newer of a value and a head. -/
theorem selectNewestEnvelope_head {dht existing : Option Bytes} {L : Bytes} {n : ℕ}
    (hL : envelopeSeq rt L = .ok n) (h : selectNewestEnvelope rt dht (some L) = .ok existing) :
    existing = some L ∨ ∃ x m, existing = some x ∧ x ≠ L ∧ dht = some x ∧
      envelopeSeq rt x = .ok m ∧ n < m := by
  cases dht with
  | none => exact .inl (Except.ok.inj h).symm
  | some e =>
    simp only [selectNewestEnvelope] at h
    split at h
    · rename_i heq
      exact .inl (heq ▸ (pure_eq_ok.1 h).symm)
    · rename_i hne
      rw [hL] at h
      split at h
      · rename_i m n' hm hn
        obtain rfl := Except.ok.inj hn
        split at h
        · simp only [bind_eq_ok, pure_eq_ok] at h
          obtain ⟨_, -, _, -, _, -, rfl⟩ := h
          exact .inl rfl
        · split at h
          · exact .inr ⟨e, m, (pure_eq_ok.1 h).symm, hne, rfl, hm, ‹_›⟩
          · exact .inl (pure_eq_ok.1 h).symm
      · exact .inl (pure_eq_ok.1 h).symm
      · rename_i hn
        cases hn

/-! ## Results -/

/-- The attributes of a result are those of the envelope it was validated from. -/
structure ResultAttributes.Describes (rt : Runtime) (result : ResultAttributes) (e : Bytes)
    (n : ℕ) (b : Bytes) : Prop extends IsHead rt e n b where
  sameSeq : ∀ m ∈ result.seq, m = n
  sameStateHash : ∀ a ∈ result.authorization, a.stateHash = rt.sha256 b

/-- **What is recorded with an envelope** is its own sequence number and state hash. -/
theorem resultSeqAndStateHash_of_describes {result : ResultAttributes} {e b : Bytes} {n : ℕ}
    (h : ResultAttributes.Describes rt result e n b) :
    resultSeqAndStateHash rt result e = .ok (n, rt.sha256 b) := by
  obtain ⟨seq, authorization, state⟩ := result
  have hrecorded : resultSeqAndStateHash rt ⟨some n, authorization, state⟩ e =
      .ok (n, rt.sha256 b) := by
    cases authorization with
    | none => simp [resultSeqAndStateHash, h.signedUpdateBytes]
    | some a => simp [resultSeqAndStateHash, h.sameStateHash a rfl]
  cases seq with
  | none => simpa [resultSeqAndStateHash, h.seq] using hrecorded
  | some m =>
    obtain rfl := h.sameSeq m rfl
    exact hrecorded

theorem authorizationMetadata_stateHash {s : MultisignatureState} {a : AuthorizationMetadata}
    (h : authorizationMetadata rt s = .ok a) : a.stateHash = s.stateHash := by
  simp only [authorizationMetadata, bind_eq_ok, pure_eq_ok] at h
  obtain ⟨_, -, rfl⟩ := h
  rfl

/-- A state that a candidate became, with the metadata the validator makes of it. -/
theorem Candidate.Reads.describes {p : Candidate} {e recordKey : Bytes}
    {history : Option (List Bytes)} {s : MultisignatureState} {u : MultisignatureUpdate}
    {a : AuthorizationMetadata} {state : Option MultisignatureState} (hp : p.Reads rt e)
    (hs : candidateState rt recordKey p history = .ok s)
    (hu : decodeMultisignatureSignedUpdate rt s.signedUpdateBytes = .ok u)
    (ha : authorizationMetadata rt s = .ok a) :
    ResultAttributes.Describes rt ⟨some u.seq, some a, state⟩ e p.seq p.signedUpdateBytes := by
  have hreads := hp.state hs
  obtain rfl : p.update = u := Except.ok.inj (hreads.update.symm.trans hu)
  refine ⟨hp.isHead, fun n hn => (Option.some.inj hn).symm, fun a' ha' => ?_⟩
  obtain rfl := Option.some.inj ha'
  obtain ⟨owner, -, rfl⟩ := candidateState_eq_ok.1 hs
  rw [authorizationMetadata_stateHash ha]
  rfl

/-- The last envelope of an accepted history is the one its state was read from. -/
theorem validateMultisignatureHistory_last {recordKey e : Bytes} {chain : List Bytes}
    {s : MultisignatureState} (h : validateMultisignatureHistory rt recordKey chain = .ok s)
    (hlast : chain.getLast? = some e) :
    ∃ (p : Candidate) (history : Option (List Bytes)), p.Reads rt e ∧
      candidateState rt recordKey p history = .ok s := by
  obtain ⟨run, -⟩ := validateMultisignatureHistory_eq_ok.1 h
  generalize hr : ReplayState.state s = r at run
  cases run with
  | anchor h =>
    obtain rfl : _ = e := by simpa using hlast
    cases h with
    | legacy => cases hr
    | genesis reads _ _ state =>
      cases hr
      exact ⟨_, _, reads, state⟩
  | step run h =>
    obtain rfl : _ = e := by simpa using hlast
    obtain ⟨p, history, s', hp, -, hs, rfl⟩ := replayStep_eq_ok.1 h
    cases hr
    exact ⟨p, history, hp, hs⟩

/-- A legacy result describes the envelope it was read from. -/
theorem validateLegacyIdentity_describes {recordKey e : Bytes} {seqState : SeqState}
    {r : IdentityOverwriteResult} (h : validateLegacyIdentity rt recordKey e seqState = .ok r) :
    ∃ seq b, ResultAttributes.Describes rt r.attributes e seq b := by
  obtain ⟨legacy, _, hreads, -, -, -, rfl⟩ := validateLegacyIdentity_eq_ok.1 h
  exact ⟨_, _, hreads.isHead, fun n hn => (Option.some.inj hn).symm, fun a ha => by cases ha⟩

theorem validateIdentityOverwrite_describes {recordKey e : Bytes} {existing : Option Bytes}
    {chain : Option (List Bytes)} {r : IdentityOverwriteResult}
    (h : validateIdentityOverwrite rt recordKey e existing chain = .ok r) :
    ∃ seq b, ResultAttributes.Describes rt r.attributes e seq b := by
  unfold validateIdentityOverwrite at h
  split at h
  · simp only [bind_eq_ok, pure_eq_ok] at h
    obtain ⟨s, hs, u, hu, -, -, -, -, -, -, -, -, a, ha, rfl⟩ := h
    obtain ⟨p, history, _, _, hp, -, -, -, hstate⟩ := validateMultisignatureTransition_spec hs
    exact ⟨_, _, hp.describes hstate hu ha⟩
  · simp only [bind_eq_ok] at h
    obtain ⟨-, -, h⟩ := h
    exact validateLegacyIdentity_describes h

theorem validateIdentityGet_describes {recordKey e : Bytes} {chain : Option (List Bytes)}
    {r : IdentityRead} (h : validateIdentityGet rt recordKey e chain = .ok r) :
    ∃ seq b, ResultAttributes.Describes rt r.attributes e seq b := by
  unfold validateIdentityGet at h
  split at h
  · simp only [bind_eq_ok, raiseIf_eq_ok, pure_eq_ok] at h
    obtain ⟨s, hs, -, -, -, -, u, hu, -, -, -, -, -, -, -, -, a, ha, rfl⟩ := h
    obtain ⟨p, history, hp, hstate⟩ : ∃ (p : Candidate) (history : Option (List Bytes)),
        p.Reads rt e ∧ candidateState rt recordKey p history = .ok s := by
      cases chain with
      | some chain =>
        simp only [readIdentityState, requireHistoryEndingAt, bind_eq_ok, raiseIf_eq_ok,
          not_not] at hs
        obtain ⟨-, hlast, hs⟩ := hs
        exact validateMultisignatureHistory_last hs hlast
      | none =>
        obtain ⟨p, history, hp, -, hstate⟩ := validateMultisignatureEnvelope_eq_ok.1 hs
        exact ⟨p, history, hp, hstate⟩
    exact ⟨_, _, hp.describes hstate hu ha⟩
  · simp only [bind_eq_ok, pure_eq_ok] at h
    obtain ⟨r', h, rfl⟩ := h
    exact validateLegacyIdentity_describes h

end DecentRegistry
