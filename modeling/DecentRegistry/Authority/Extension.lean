import DecentRegistry.Authority.Commitment
import DecentRegistry.Authority.Lineage

/-!
# Extending a history

An envelope extends an accepted history exactly when it is accepted over the last entry with the
history as its chain (`overwrite_of_extends`, `extends_of_overwrite`). Which envelopes these are
depends on the SignedUpdates in the history alone, and not on the proofs they were accepted with
(`extends_of_sameUpdates`).
-/

namespace DecentRegistry

open Fallible PyValue Replay

variable {rt : Runtime} {recordKey e : Bytes} {l l' : List Bytes}
  {s t current current' : MultisignatureState}

/-! ## One more entry -/

theorem ne_nil_of_history (h : validateMultisignatureHistory rt recordKey l = .ok s) : l ≠ [] := by
  rintro rfl
  simp [validateMultisignatureHistory] at h

theorem isAnchor_unique (first : Bytes) (r r' : ReplayState) (h : IsAnchor rt recordKey first r)
    (h' : IsAnchor rt recordKey first r') : r = r' := by
  rw [← replayAnchor_eq_ok] at h h'
  exact Except.ok.inj (h.symm.trans h')

/-- **One more entry** is one more round of the replay. -/
theorem history_snoc (hl : validateMultisignatureHistory rt recordKey l = .ok current) :
    validateMultisignatureHistory rt recordKey (l ++ [e]) = .ok s ↔
      replayStep rt recordKey (.state current) e = .ok (.state s) := by
  have hne := ne_nil_of_history hl
  rw [validateMultisignatureHistory_iff_replays] at hl ⊢
  constructor
  · intro h
    obtain ⟨r, hr, hstep⟩ := h.snoc_inv hne
    obtain rfl := hr.unique isAnchor_unique hl
    exact hstep
  · exact hl.step

/-- The entry of an accepted history that comes after an accepted beginning extends it. -/
theorem history_of_append {m : List Bytes}
    (hl : validateMultisignatureHistory rt recordKey l = .ok current)
    (h : validateMultisignatureHistory rt recordKey (l ++ e :: m) = .ok s) :
    ∃ t, validateMultisignatureHistory rt recordKey (l ++ [e]) = .ok t := by
  have hne := ne_nil_of_history hl
  obtain ⟨r, hr, hfold⟩ := (validateMultisignatureHistory_iff_replays.1 h).append_inv hne
  obtain rfl := hr.unique isAnchor_unique
    (validateMultisignatureHistory_iff_replays.1 hl)
  obtain ⟨t, ht, -⟩ := foldlM_cons_eq_ok.1 hfold
  obtain ⟨_, _, t, -, -, -, rfl⟩ := replayStep_eq_ok.1 ht
  exact ⟨t, (history_snoc hl).2 ht⟩

/-- The state of an accepted history stands for its last entry. -/
theorem history_reads (h : validateMultisignatureHistory rt recordKey l = .ok s) :
    ∃ (x : Bytes) (p : Candidate) (history : Option (List Bytes)), l.getLast? = some x ∧
      p.Reads rt x ∧ candidateState rt recordKey p history = .ok s := by
  obtain ⟨⟨x, hlast, p, history, hp, hs⟩, -⟩ :=
    replays_isHashChain (validateMultisignatureHistory_eq_ok.1 h).1
  exact ⟨x, p, history, hlast, hp, hs⟩

theorem history_recordKind (h : validateMultisignatureHistory rt recordKey l = .ok s) :
    s.recordKind = .identity :=
  (stepwiseRun_of_history h).history.1

/-! ## Overwrites -/

/-- A step from the state of a history is accepted over its last entry. -/
theorem overwrite_of_step {x : Bytes} {p : Candidate} {history : Option (List Bytes)}
    (hl : validateMultisignatureHistory rt recordKey l = .ok current)
    (hlast : l.getLast? = some x) (hp : p.Reads rt e)
    (hstep : IsStep rt recordKey e p (some current) none history)
    (hs : candidateState rt recordKey p history = .ok s) :
    ∃ r, validateIdentityOverwrite rt recordKey e (some x) (some l) = .ok r ∧
      r.state = some s := by
  obtain ⟨x', q, _, hlast', hq, -⟩ := history_reads hl
  obtain rfl := Option.some.inj (hlast.symm.trans hlast')
  have hkind : p.authorization.recordKind = .identity :=
    hstep.current_recordKind.symm.trans (history_recordKind hl)
  have hverified : p.authorization.operation = .ownerKeyRotation →
      ∀ state ∈ some current, HistoryVerified rt recordKey state := by
    rintro - _ ⟨⟩ history' hhistory'
    obtain rfl := Option.some.inj
      ((validateMultisignatureHistory_eq_ok.1 hl).2.symm.trans hhistory')
    exact ⟨current, hl, rfl, rfl⟩
  have hupdate := validateMultisignatureUpdate_eq_ok.2 ⟨p, history, hp, hstep, hverified, hs⟩
  have hreads := hp.state hs
  have hbinding := hp.binding
  rw [hkind] at hbinding
  obtain ⟨-, -, ownerName, ownerPublicKey, hname, howner, -⟩ := hbinding
  have hwithdraws : withdraws p.update = .ok false :=
    withdraws_eq_ok.2 (by simp [Candidate.update, hkind])
  have htransition : validateMultisignatureTransition rt recordKey e (some x) (some l) = .ok s := by
    simp only [validateMultisignatureTransition, bind_eq_ok, raiseIf_eq_ok, exists_const,
      isMultisignatureEnvelope_of_decode hq.envelope, if_true, pure_eq_ok]
    refine ⟨p.envelope, hp.envelope, p.update, hp.decode, false, hwithdraws, by simp,
      (some current, none), ⟨current, ?_, rfl⟩, s, hupdate, by simp⟩
    exact currentMultisignatureState_eq_ok (p := p).2 ⟨hlast, hl⟩
  simp only [validateIdentityOverwrite, isMultisignatureEnvelope_of_decode hp.envelope, if_true,
    htransition, ok_bind, hreads.update, Candidate.update, getItem_eq_ok.2 hname,
    getItem_eq_ok.2 howner, authorizationMetadata, toBytes_bytes]
  exact ⟨_, rfl, rfl⟩

/-- **What extends a history** is accepted over its last entry. -/
theorem overwrite_of_extends {x : Bytes}
    (hl : validateMultisignatureHistory rt recordKey l = .ok current)
    (hlast : l.getLast? = some x)
    (h : validateMultisignatureHistory rt recordKey (l ++ [e]) = .ok s) :
    ∃ r, validateIdentityOverwrite rt recordKey e (some x) (some l) = .ok r ∧ r.state = some s := by
  obtain ⟨p, history, t, hp, hstep, hs, heq⟩ := replayStep_eq_ok.1 ((history_snoc hl).1 h)
  cases heq
  exact overwrite_of_step hl hlast hp hstep hs

/-- **What is accepted over the last entry** of a history, with the history as its chain, extends
it. -/
theorem extends_of_overwrite {x : Bytes} {r : IdentityOverwriteResult}
    (hl : validateMultisignatureHistory rt recordKey l = .ok current)
    (hlast : l.getLast? = some x)
    (h : validateIdentityOverwrite rt recordKey e (some x) (some l) = .ok r) :
    ∃ s, r.state = some s ∧ validateMultisignatureHistory rt recordKey (l ++ [e]) = .ok s := by
  obtain ⟨x', q, _, hlast', hq, -⟩ := history_reads hl
  obtain rfl := Option.some.inj (hlast.symm.trans hlast')
  have hx := isMultisignatureEnvelope_of_decode hq.envelope
  cases he : isMultisignatureEnvelope rt e with
  | true =>
    simp only [validateIdentityOverwrite, he, if_true, bind_eq_ok, pure_eq_ok] at h
    obtain ⟨s, hs, _, -, _, -, _, -, _, -, _, -, _, -, rfl⟩ := h
    obtain ⟨p, history, _, _, hp, hfrom, hstep, -, hstate⟩ :=
      validateMultisignatureTransition_spec hs
    simp only [StepsFrom, hx, if_true] at hfrom
    obtain ⟨c, rfl, rfl, -, hc⟩ := hfrom
    obtain rfl := Except.ok.inj (hl.symm.trans hc)
    exact ⟨s, rfl, (history_snoc hl).2 (replayStep_eq_ok.2 ⟨p, history, s, hp, hstep, hstate, rfl⟩)⟩
  | false =>
    have hnot := not_multisignature_of_legacyOverwrite he h x rfl
    rw [hx] at hnot
    cases hnot

/-! ## The same SignedUpdates -/

/-- The states of two histories with the same SignedUpdates differ in their history only. -/
theorem state_of_sameUpdates (hl : validateMultisignatureHistory rt recordKey l = .ok current)
    (hl' : validateMultisignatureHistory rt recordKey l' = .ok current')
    (same : l.map (signedUpdateOf rt) = l'.map (signedUpdateOf rt)) :
    current' = { current with history := some l' } := by
  obtain ⟨x, p, _, hlast, hp, hs⟩ := history_reads hl
  obtain ⟨x', p', _, hlast', hp', hs'⟩ := history_reads hl'
  have hbytes : p.signedUpdateBytes = p'.signedUpdateBytes := by
    have hends := congrArg List.getLast? same
    rw [List.getLast?_map, List.getLast?_map, hlast, hlast'] at hends
    simpa [signedUpdateOf_candidate hp, signedUpdateOf_candidate hp'] using hends
  have hupdate : p.update = p'.update :=
    Except.ok.inj (hp.update.symm.trans (hbytes ▸ hp'.update))
  simp only [Candidate.update, MultisignatureUpdate.mk.injEq] at hupdate
  obtain ⟨hfields, -, hseq, hauthorization⟩ := hupdate
  have hhistory := (validateMultisignatureHistory_eq_ok.1 hl').2
  obtain ⟨owner, howner, rfl⟩ := candidateState_eq_ok.1 hs
  obtain ⟨owner', howner', rfl⟩ := candidateState_eq_ok.1 hs'
  rw [← hfields, ← hauthorization] at howner'
  obtain rfl := Except.ok.inj (howner.symm.trans howner')
  rw [← hhistory]
  simp only [Candidate.state, hbytes, hseq, hauthorization]

/-- A legacy anchor and a genesis carry different SignedUpdates. -/
theorem legacyAnchor_of_sameUpdates
    (hl : validateMultisignatureHistory rt recordKey l = .ok current)
    (hl' : validateMultisignatureHistory rt recordKey l' = .ok current')
    (same : l.map (signedUpdateOf rt) = l'.map (signedUpdateOf rt))
    (h : ∀ a ∈ l.head?, (decodeMultisignatureEnvelope rt a).isOk = false) :
    ∀ a ∈ l'.head?, (decodeMultisignatureEnvelope rt a).isOk = false := by
  obtain ⟨a, rest, r, rfl, hanchor, -⟩ :=
    replays_iff.1 (validateMultisignatureHistory_eq_ok.1 hl).1
  obtain ⟨a', rest', r', rfl, hanchor', -⟩ :=
    replays_iff.1 (validateMultisignatureHistory_eq_ok.1 hl').1
  rintro _ ⟨⟩
  have hhead : signedUpdateOf rt a = signedUpdateOf rt a' := (List.cons.inj same).1
  cases hanchor' with
  | legacy reads =>
    obtain ⟨err, herr⟩ := reads.decode_eq_error
    rw [herr]
    rfl
  | genesis reads' =>
    cases hanchor with
    | legacy reads =>
      rw [signedUpdateOf_legacy reads, signedUpdateOf_candidate reads'] at hhead
      have hupdate := decodeMultisignatureSignedUpdate_eq_ok.1 reads'.update
      rw [← Except.ok.inj hhead, reads.update] at hupdate
      simp at hupdate
    | genesis reads =>
      have hlegacy := h a rfl
      rw [reads.envelope] at hlegacy
      cases hlegacy

/-- Steps do not look at the history of the state they start from, but for rotations, which look at
the kind of its anchor. -/
theorem IsStep.of_history {p : Candidate} {history : Option (List Bytes)}
    (hstep : IsStep rt recordKey e p (some current) none history)
    (hl : current.history = some l)
    (hanchor : (∀ a ∈ l.head?, (decodeMultisignatureEnvelope rt a).isOk = false) →
      ∀ a ∈ l'.head?, (decodeMultisignatureEnvelope rt a).isOk = false) :
    ∃ history', IsStep rt recordKey e p (some { current with history := some l' })
      none history' := by
  cases hstep with
  | ordinaryUpdate h => exact ⟨_, .ordinaryUpdate { h with }⟩
  | replaceSigners h => exact ⟨_, .replaceSigners { h with }⟩
  | rotate h =>
    obtain rfl := Option.some.inj (h.complete.symm.trans hl)
    have h' : IsRotationFromState rt recordKey p { current with history := some l' } l' :=
      { h with complete := rfl, legacyAnchor := hanchor h.legacyAnchor }
    exact ⟨_, .rotate h'⟩

/-- **What extends a history** extends every accepted history with the same SignedUpdates. -/
theorem extends_of_sameUpdates (hl : validateMultisignatureHistory rt recordKey l = .ok current)
    (hl' : validateMultisignatureHistory rt recordKey l' = .ok current')
    (same : l.map (signedUpdateOf rt) = l'.map (signedUpdateOf rt))
    (h : validateMultisignatureHistory rt recordKey (l ++ [e]) = .ok s) :
    ∃ t, validateMultisignatureHistory rt recordKey (l' ++ [e]) = .ok t := by
  obtain ⟨p, history, t, hp, hstep, hs, -⟩ := replayStep_eq_ok.1 ((history_snoc hl).1 h)
  obtain ⟨history', hstep'⟩ := hstep.of_history (validateMultisignatureHistory_eq_ok.1 hl).2
    (legacyAnchor_of_sameUpdates hl hl' same)
  rw [← state_of_sameUpdates hl hl' same] at hstep'
  obtain ⟨owner, -, howner⟩ := hp.owner
  exact ⟨_, (history_snoc hl').2 (replayStep_eq_ok.2
    ⟨p, history', _, hp, hstep', candidateState_eq_ok.2 ⟨owner, howner, rfl⟩, rfl⟩)⟩

end DecentRegistry
