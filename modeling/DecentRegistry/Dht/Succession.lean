import DecentRegistry.Dht.IdentityBinding

/-!
# What succeeds an Identity head

What `validate_identity_overwrite` accepts over a head succeeds it (`succession_of_overwrite`), so
that its sequence number is greater, it is no legacy envelope over a multisignature one, and its
owner is the owner of the head unless it is a rotation (`Supersedes`). The history of the accepted
state, if it has one, ends with the envelope (`history_of_overwrite`). -/

namespace DecentRegistry

open Fallible PyValue

variable {rt : Runtime} {recordKey e : Bytes}

/-! ## Steps -/

namespace IsStep

variable {p : Candidate} {history : Option (List Bytes)}

theorem seq_of_state {current : MultisignatureState}
    (h : IsStep rt recordKey e p (some current) none history) : current.seq < p.seq := by
  cases h with
  | ordinaryUpdate h => exact h.seq
  | replaceSigners h => exact h.seq
  | rotate h =>
    obtain ⟨_, -, hrotation⟩ := h.rotation
    have := hrotation.seq
    omega

theorem seq_of_legacy {anchor : Bytes} (h : IsStep rt recordKey e p none (some anchor) history) :
    ∃ legacy : LegacyState, legacy.Reads rt recordKey anchor ∧ legacy.seq < p.seq := by
  cases h with
  | upgrade hreads h => exact ⟨_, hreads, h.seq⟩
  | rotateLegacy hreads h =>
    have := h.seq
    exact ⟨_, hreads, by omega⟩

/-- The history of a step ends with its envelope. -/
theorem history_last {current : Option MultisignatureState} {anchor : Option Bytes}
    (h : IsStep rt recordKey e p current anchor history) :
    ∀ envelopes ∈ history, envelopes.getLast? = some e := by
  rintro envelopes hmem
  have happend {s : MultisignatureState} (hmem : envelopes ∈ appendHistory s e) :
      envelopes.getLast? = some e := by
    obtain ⟨before, -, rfl⟩ := Option.map_eq_some_iff.1 hmem
    simp
  cases h with
  | genesis =>
    obtain rfl := Option.some.inj hmem
    rfl
  | ordinaryUpdate => exact happend hmem
  | replaceSigners => exact happend hmem
  | upgrade =>
    obtain rfl := Option.some.inj hmem
    rfl
  | rotateLegacy =>
    obtain rfl := Option.some.inj hmem
    rfl
  | rotate =>
    obtain rfl := Option.some.inj hmem
    simp

end IsStep

/-! ## Successions -/

/-- The later of two envelopes in succession has the greater sequence number. -/
theorem Succession.newer {x y : Bytes} (h : Succession rt recordKey x y) :
    ∃ n m, envelopeSeq rt x = .ok n ∧ envelopeSeq rt y = .ok m ∧ n < m := by
  cases h with
  | legacy hx hy _ _ newer => exact ⟨_, _, hx.isHead.seq, hy.isHead.seq, newer⟩
  | @accepted l _ _ s run =>
    rcases run.snoc_cases with ⟨hnil, -⟩ | ⟨anchor, r, hanchor, -, h⟩ | ⟨t, run', h⟩
    · simp at hnil
    · obtain ⟨-, rfl⟩ : l = [] ∧ x = anchor := by
        simpa using List.append_eq_singleton_iff.1 hanchor
      obtain ⟨p, history, hp, hstep, -, -⟩ := validateMultisignatureUpdate_eq_ok.1 h
      obtain ⟨legacy, hreads, hlt⟩ := hstep.seq_of_legacy
      exact ⟨_, _, hreads.isHead.seq, hp.isHead.seq, hlt⟩
    · obtain ⟨p, history, hp, hstep, -, -⟩ := validateMultisignatureUpdate_eq_ok.1 h
      obtain ⟨q, _, hq, ht⟩ := run'.reads
      have hlt := hstep.seq_of_state
      rw [(hq.state ht).seq] at hlt
      exact ⟨_, _, hq.isHead.seq, hp.isHead.seq, hlt⟩

/-! ## Accepted Identities -/

/-- What is accepted is a head. -/
theorem identityHead_of_overwrite {existing : Option Bytes} {chain : Option (List Bytes)}
    {r : IdentityOverwriteResult}
    (h : validateIdentityOverwrite rt recordKey e existing chain = .ok r) :
    IdentityHead rt recordKey e := by
  cases he : isMultisignatureEnvelope rt e with
  | true =>
    obtain ⟨l, s, run, -⟩ := validateIdentityOverwrite_run he h
    exact .inr ⟨l, s, run⟩
  | false =>
    simp only [validateIdentityOverwrite, he, Bool.false_eq_true, if_false, bind_eq_ok,
      validateLegacyIdentity_eq_ok] at h
    obtain ⟨-, -, next, _, hreads, hnext, -⟩ := h
    exact .inl ⟨next, hreads, hnext⟩

/-- **What is accepted over a head succeeds it.** -/
theorem succession_of_overwrite {L : Bytes} {chain : Option (List Bytes)}
    {r : IdentityOverwriteResult} (hL : IdentityHead rt recordKey L)
    (h : validateIdentityOverwrite rt recordKey e (some L) chain = .ok r) :
    Succession rt recordKey L e := by
  cases he : isMultisignatureEnvelope rt e with
  | true =>
    obtain ⟨l, s, run, hexisting⟩ := validateIdentityOverwrite_run he h
    obtain ⟨before, rfl⟩ := List.getLast?_eq_some_iff.1 (hexisting L rfl).1
    exact .accepted run
  | false =>
    have hLegacy := not_multisignature_of_legacyOverwrite he h L rfl
    obtain ⟨legacy, hlegacy, hkind⟩ := hL.legacy hLegacy
    simp only [validateIdentityOverwrite, he, Bool.false_eq_true, if_false, bind_eq_ok,
      validateLegacyIdentity_eq_ok] at h
    obtain ⟨-, -, next, _, hreads, hnext, -, hfollow, -⟩ := h
    simp only [seqStateOf, if_true, Option.bind_some,
      extractIdentityPrevSeqState_legacy hlegacy hkind] at hfollow
    exact succession_of_mayFollow hlegacy hkind hreads hnext rfl le_rfl hfollow

/-- The history of an accepted state ends with the envelope. -/
theorem history_of_overwrite {existing : Option Bytes} {chain : Option (List Bytes)}
    {r : IdentityOverwriteResult}
    (h : validateIdentityOverwrite rt recordKey e existing chain = .ok r) :
    ∀ s ∈ r.state, ∀ history ∈ s.history, history.getLast? = some e := by
  cases he : isMultisignatureEnvelope rt e with
  | true =>
    simp only [validateIdentityOverwrite, he, if_true, bind_eq_ok, pure_eq_ok] at h
    obtain ⟨s, hs, _, -, _, -, _, -, _, -, _, -, _, -, rfl⟩ := h
    obtain ⟨p, history, current, anchor, -, -, hstep, -, hstate⟩ :=
      validateMultisignatureTransition_spec hs
    rintro _ ⟨⟩ envelopes hmem
    obtain ⟨owner, -, rfl⟩ := candidateState_eq_ok.1 hstate
    -- a Provider state keeps no history
    refine hstep.history_last envelopes ?_
    simp only [Candidate.state, Option.mem_def] at hmem
    split at hmem
    · exact hmem
    · cases hmem
  | false =>
    simp only [validateIdentityOverwrite, he, Bool.false_eq_true, if_false, bind_eq_ok,
      validateLegacyIdentity_eq_ok] at h
    obtain ⟨-, -, _, _, -, -, -, -, rfl⟩ := h
    rintro s ⟨⟩

/-! ## What takes the place of a head -/

/-- What a head demands of the one that takes its place. -/
structure Supersedes (rt : Runtime) (head next : Bytes) : Prop where
  newer : ∃ n m, envelopeSeq rt head = .ok n ∧ envelopeSeq rt next = .ok m ∧ n < m
  multisignature : isMultisignatureEnvelope rt head = true → isMultisignatureEnvelope rt next = true
  owner : ∃ owner, envelopeOwner rt .identity head = .ok owner ∧
    (envelopeOwner rt .identity next = .ok owner ∨ IsOwnerKeyRotation rt next)

/-- **What is accepted over a head supersedes it.** -/
theorem supersedes_of_overwrite {L : Bytes} {chain : Option (List Bytes)}
    {r : IdentityOverwriteResult} (hL : IdentityHead rt recordKey L)
    (h : validateIdentityOverwrite rt recordKey e (some L) chain = .ok r) : Supersedes rt L e := by
  have hsuccession := succession_of_overwrite hL h
  obtain ⟨owner, howner⟩ := hL.owner
  refine ⟨hsuccession.newer, fun hmultisig => ?_, owner, howner, hsuccession.owner howner⟩
  by_contra hne
  have := not_multisignature_of_legacyOverwrite (Bool.eq_false_iff.2 hne) h L rfl
  rw [hmultisig] at this
  cases this

end DecentRegistry
