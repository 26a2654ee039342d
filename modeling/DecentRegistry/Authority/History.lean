import DecentRegistry.Authority.Chain
import DecentRegistry.Authority.Legacy

/-!
# Stepwise runs and replays

The history a state keeps is the list of envelopes that led to it, and there are two ways to go
through such a list: accepting the envelopes one after another (`StepwiseRun`), and replaying the
list. Every replay is a stepwise run (`StepwiseRun.of_replay`). The other direction needs the
anchor to have the exact shape of an Identity Record (`StrictAnchor`): the replay demands it, and so
does the rotation of a legacy record, but the upgrade of a legacy record does not.
-/

namespace DecentRegistry

open Fallible PyValue Replay

variable {rt : Runtime}

/-- Envelopes accepted one after another, from a genesis, or from a legacy Identity that was
accepted as a first write. -/
inductive StepwiseRun (rt : Runtime) (recordKey : Bytes) : List Bytes → MultisignatureState → Prop
  | genesis {e : Bytes} {s : MultisignatureState}
      (h : validateMultisignatureUpdate rt recordKey e none none = .ok s)
      (recordKind : s.recordKind = .identity) : StepwiseRun rt recordKey [e] s
  | legacy {anchor e : Bytes} {r : IdentityOverwriteResult} {s : MultisignatureState}
      (first : validateIdentityOverwrite rt recordKey anchor none none = .ok r)
      (h : validateMultisignatureUpdate rt recordKey e none (some anchor) = .ok s) :
      StepwiseRun rt recordKey [anchor, e] s
  | step {l : List Bytes} {e : Bytes} {s t : MultisignatureState}
      (run : StepwiseRun rt recordKey l s)
      (h : validateMultisignatureUpdate rt recordKey e (some s) none = .ok t) :
      StepwiseRun rt recordKey (l ++ [e]) t

/-- A first envelope that is a multisignature one, or whose SignedUpdate has exactly the fields of
an Identity Record and no payload. -/
def StrictAnchor (rt : Runtime) (envelopes : List Bytes) : Prop :=
  ∀ first ∈ envelopes.head?, ∀ bytes signature u,
    decodeSignedEnvelope rt first = .ok (bytes, signature) →
    decodeCanonicalSignedUpdate rt bytes = .ok u →
    u.recordFields.keysAre [1, 2] = true ∧ u.payload = []

/-! ## The state after each step -/

/-- A first write of a legacy Identity reads as one. -/
theorem validateIdentityOverwrite_legacy {recordKey anchor : Bytes} {r : IdentityOverwriteResult}
    {legacy : LegacyState} (h : validateIdentityOverwrite rt recordKey anchor none none = .ok r)
    (hreads : legacy.Reads rt recordKey anchor) : legacy.recordKind = .identity := by
  obtain ⟨signature, hsigned, -⟩ := hreads.signed
  simp only [validateIdentityOverwrite, isMultisignatureEnvelope_of_legacy hsigned,
    Bool.false_eq_true, if_false, bind_eq_ok, validateLegacyIdentity_eq_ok] at h
  obtain ⟨-, -, legacy', _, hreads', hkind, -⟩ := h
  rwa [hreads.unique hreads']

/-- A legacy Identity may be written first. -/
theorem LegacyState.Reads.first_write {legacy : LegacyState} {recordKey e : Bytes}
    (h : legacy.Reads rt recordKey e) (hkind : legacy.recordKind = .identity) :
    ∃ r, validateIdentityOverwrite rt recordKey e none none = .ok r := by
  obtain ⟨signature, hsigned, -⟩ := h.signed
  obtain ⟨ownerName, hname, -⟩ := h.identity hkind
  simp only [validateIdentityOverwrite, isMultisignatureEnvelope_of_legacy hsigned,
    Bool.false_eq_true, if_false, bind_eq_ok, raiseIf_eq_ok, validateLegacyIdentity_eq_ok]
  exact ⟨_, (), by simp, legacy, ownerName, h, hkind, hname, by simp [MayFollow, seqStateOf], rfl⟩

/-- A step from an Identity state is a step of an Identity, and appends to the history. -/
theorem IsStep.history_step {recordKey e : Bytes} {p : Candidate} {current s : MultisignatureState}
    {history : Option (List Bytes)} {l : List Bytes}
    (hstep : IsStep rt recordKey e p (some current) none history)
    (hs : candidateState rt recordKey p history = .ok s) (hkind : current.recordKind = .identity)
    (hl : current.history = some l) : s.recordKind = .identity ∧ s.history = some (l ++ [e]) := by
  obtain ⟨owner, -, rfl⟩ := candidateState_eq_ok.1 hs
  cases hstep with
  | ordinaryUpdate h =>
    have hp := h.recordKind.trans hkind
    exact ⟨hp, by simp [Candidate.state, hp, appendHistory, hl]⟩
  | replaceSigners h =>
    have hp := h.recordKind.trans hkind
    exact ⟨hp, by simp [Candidate.state, hp, appendHistory, hl]⟩
  | rotate h =>
    obtain ⟨_, -, hrotation⟩ := h.rotation
    obtain rfl := Option.some.inj (h.complete.symm.trans hl)
    exact ⟨hrotation.recordKind, by simp [Candidate.state, hrotation.recordKind]⟩

/-- A step from a legacy Identity begins a history of two. -/
theorem IsStep.history_legacy {recordKey e anchor : Bytes} {p : Candidate}
    {s : MultisignatureState} {history : Option (List Bytes)} {legacy : LegacyState}
    (hreads : legacy.Reads rt recordKey anchor) (hkind : legacy.recordKind = .identity)
    (hstep : IsStep rt recordKey e p none (some anchor) history)
    (hs : candidateState rt recordKey p history = .ok s) :
    s.recordKind = .identity ∧ s.history = some [anchor, e] := by
  obtain ⟨owner, -, rfl⟩ := candidateState_eq_ok.1 hs
  cases hstep with
  | upgrade hreads' h =>
    have hp : p.authorization.recordKind = .identity := by
      rw [h.recordKind, hreads'.unique hreads, hkind]
    exact ⟨hp, by simp [Candidate.state, hp]⟩
  | rotateLegacy _ h =>
    exact ⟨h.recordKind, by simp [Candidate.state, h.recordKind]⟩

/-- What a replay has established about the state it stands at. -/
def ReplayedTo (rt : Runtime) (recordKey : Bytes) (l : List Bytes) : ReplayState → Prop
  | .legacyAnchor anchor => l = [anchor] ∧ ∃ legacy : LegacyState,
      legacy.Reads rt recordKey anchor ∧ legacy.recordKind = .identity
  | .state s => s.recordKind = .identity ∧ s.history = some l

theorem replays_replayedTo {recordKey : Bytes} {l : List Bytes} {r : ReplayState}
    (run : Replays (IsAnchor rt recordKey) (replayStep rt recordKey) l r) :
    ReplayedTo rt recordKey l r := by
  induction run with
  | anchor h =>
    cases h with
    | legacy reads recordKind => exact ⟨rfl, _, reads, recordKind⟩
    | genesis _ _ recordKind state =>
      obtain ⟨owner, -, rfl⟩ := candidateState_eq_ok.1 state
      exact ⟨recordKind, by simp [Candidate.state, recordKind]⟩
  | @step l e r t _ h ih =>
    obtain ⟨p, history, s, -, hstep, hs, rfl⟩ := replayStep_eq_ok.1 h
    cases r with
    | legacyAnchor anchor =>
      obtain ⟨rfl, legacy, hreads, hkind⟩ := ih
      exact hstep.history_legacy hreads hkind hs
    | state current => exact hstep.history_step hs ih.1 ih.2

/-- The replay accepts a list exactly when it has a run over it: the history is then the list. -/
theorem validateMultisignatureHistory_iff_replays {recordKey : Bytes} {l : List Bytes}
    {s : MultisignatureState} :
    validateMultisignatureHistory rt recordKey l = .ok s ↔
      Replays (IsAnchor rt recordKey) (replayStep rt recordKey) l (.state s) := by
  rw [validateMultisignatureHistory_eq_ok]
  exact ⟨And.left, fun run => ⟨run, (replays_replayedTo run).2⟩⟩

/-- A state reached by a stepwise run is an Identity state whose history is the run. -/
theorem StepwiseRun.history {recordKey : Bytes} {l : List Bytes} {s : MultisignatureState}
    (run : StepwiseRun rt recordKey l s) : s.recordKind = .identity ∧ s.history = some l := by
  induction run with
  | genesis h recordKind =>
    obtain ⟨p, history, -, hstep, -, hs⟩ := validateMultisignatureUpdate_eq_ok.1 h
    cases hstep with
    | genesis => exact ⟨recordKind, by rw [candidateState_history hs, if_pos recordKind]⟩
  | legacy first h =>
    obtain ⟨p, history, -, hstep, -, hs⟩ := validateMultisignatureUpdate_eq_ok.1 h
    cases hstep with
    | upgrade hreads hup =>
      exact (IsStep.upgrade hreads hup).history_legacy hreads
        (validateIdentityOverwrite_legacy first hreads) hs
    | rotateLegacy hreads hrot =>
      exact (IsStep.rotateLegacy hreads hrot).history_legacy hreads
        (validateIdentityOverwrite_legacy first hreads) hs
  | step _ h ih =>
    obtain ⟨p, history, -, hstep, -, hs⟩ := validateMultisignatureUpdate_eq_ok.1 h
    exact hstep.history_step hs ih.1 ih.2

/-! ## From replays to runs -/

/-- **Every replay is a stepwise run.** -/
theorem StepwiseRun.of_replay {recordKey : Bytes} {l : List Bytes} {r : ReplayState}
    (run : Replays (IsAnchor rt recordKey) (replayStep rt recordKey) l r) :
    ∀ s, r = .state s → StepwiseRun rt recordKey l s := by
  induction run with
  | anchor h =>
    rintro s rfl
    cases h with
    | genesis reads h recordKind state =>
      refine .genesis (validateMultisignatureUpdate_eq_ok.2
        ⟨_, _, reads, .genesis h, by simp, state⟩) ?_
      exact (reads.state state).recordKind.trans recordKind
  | @step l e r t run h ih =>
    rintro s rfl
    obtain ⟨p, history, t, hp, hstep, hs, heq⟩ := replayStep_eq_ok.1 h
    cases heq
    have hto := replays_replayedTo run
    cases r with
    | legacyAnchor anchor =>
      obtain ⟨rfl, legacy, hreads, hkind⟩ := hto
      obtain ⟨r, hfirst⟩ := hreads.first_write hkind
      exact .legacy hfirst (validateMultisignatureUpdate_eq_ok.2
        ⟨p, history, hp, hstep, by simp, hs⟩)
    | state current =>
      refine (ih current rfl).step (validateMultisignatureUpdate_eq_ok.2
        ⟨p, history, hp, hstep, fun _ state hstate => ?_, hs⟩)
      -- the history to verify is the list replayed so far
      obtain rfl : current = state := Option.some.inj hstate
      intro l' hl'
      obtain rfl : l = l' := Option.some.inj (hto.2.symm.trans hl')
      exact ⟨current, validateMultisignatureHistory_iff_replays.2 run, rfl, rfl⟩

theorem stepwiseRun_of_history {recordKey : Bytes} {l : List Bytes} {s : MultisignatureState}
    (h : validateMultisignatureHistory rt recordKey l = .ok s) : StepwiseRun rt recordKey l s :=
  .of_replay (validateMultisignatureHistory_iff_replays.1 h) s rfl

/-! ## From runs to replays -/

theorem head?_append_of_ne_nil {l : List Bytes} (h : l ≠ []) (e : Bytes) :
    (l ++ [e]).head? = l.head? := by
  cases l with
  | nil => exact absurd rfl h
  | cons => rfl

theorem StepwiseRun.ne_nil {recordKey : Bytes} {l : List Bytes} {s : MultisignatureState}
    (run : StepwiseRun rt recordKey l s) : l ≠ [] := by
  cases run <;> simp

/-- A stepwise run from a strict anchor is a replay. -/
theorem StepwiseRun.replays {recordKey : Bytes} {l : List Bytes} {s : MultisignatureState}
    (run : StepwiseRun rt recordKey l s) (strict : StrictAnchor rt l) :
    Replays (IsAnchor rt recordKey) (replayStep rt recordKey) l (.state s) := by
  induction run with
  | @genesis e s h recordKind =>
    obtain ⟨p, history, hp, hstep, -, hs⟩ := validateMultisignatureUpdate_eq_ok.1 h
    cases hstep with
    | genesis h =>
      exact .anchor (.genesis hp h ((hp.state hs).recordKind.symm.trans recordKind) hs)
  | @legacy anchor e r s first h =>
    obtain ⟨p, history, hp, hstep, -, hs⟩ := validateMultisignatureUpdate_eq_ok.1 h
    obtain ⟨legacy, hreads⟩ : ∃ legacy : LegacyState, legacy.Reads rt recordKey anchor := by
      cases hstep with
      | upgrade hreads => exact ⟨_, hreads⟩
      | rotateLegacy hreads => exact ⟨_, hreads⟩
    obtain ⟨signature, hsigned, -⟩ := hreads.signed
    obtain ⟨hfields, hpayload⟩ := strict anchor rfl _ _ _ hsigned hreads.update
    have hanchor : IsAnchor rt recordKey anchor (.legacyAnchor anchor) :=
      .legacy hreads (validateIdentityOverwrite_legacy first hreads)
        (by simpa [LegacyState.isIdentityRecord] using ⟨hfields, hpayload⟩)
    exact (Replays.anchor hanchor).step (replayStep_eq_ok.2 ⟨p, history, s, hp, hstep, hs, rfl⟩)
  | @step l e s t run h ih =>
    obtain ⟨p, history, hp, hstep, -, hs⟩ := validateMultisignatureUpdate_eq_ok.1 h
    have hstrict : StrictAnchor rt l := by
      rwa [StrictAnchor, head?_append_of_ne_nil run.ne_nil] at strict
    exact (ih hstrict).step (replayStep_eq_ok.2 ⟨p, history, t, hp, hstep, hs, rfl⟩)

/-- The anchor of a replay is strict. -/
theorem strictAnchor_of_replays {recordKey : Bytes} {l : List Bytes} {r : ReplayState}
    (run : Replays (IsAnchor rt recordKey) (replayStep rt recordKey) l r) : StrictAnchor rt l := by
  obtain ⟨first, rest, r, rfl, hanchor, -⟩ := replays_iff.1 run
  rintro _ ⟨⟩ bytes signature u hsigned hu
  cases hanchor with
  | legacy reads recordKind shape =>
    obtain ⟨signature', hsigned', -⟩ := reads.signed
    obtain ⟨rfl, -⟩ := Prod.mk.inj (Except.ok.inj (hsigned.symm.trans hsigned'))
    obtain rfl := Except.ok.inj (hu.symm.trans reads.update)
    simpa [LegacyState.isIdentityRecord] using shape
  | genesis reads =>
    have := isMultisignatureEnvelope_of_legacy hsigned
    rw [isMultisignatureEnvelope_of_decode reads.envelope] at this
    cases this

/-- **Stepwise runs and replays agree** exactly where the anchor is strict, and every replay is a
stepwise run. -/
theorem stepwiseRun_iff_history (rt : Runtime) (recordKey : Bytes) :
    (∀ l s, StepwiseRun rt recordKey l s → s.history = some l ∧
        (validateMultisignatureHistory rt recordKey l = .ok s ↔ StrictAnchor rt l)) ∧
      ∀ l s, validateMultisignatureHistory rt recordKey l = .ok s →
        StepwiseRun rt recordKey l s := by
  refine ⟨fun l s run => ⟨run.history.2, fun h => ?_, fun strict => ?_⟩, fun l s h => ?_⟩
  · exact strictAnchor_of_replays (validateMultisignatureHistory_iff_replays.1 h)
  · exact validateMultisignatureHistory_iff_replays.2 (run.replays strict)
  · exact stepwiseRun_of_history h

/-- An Identity whose anchor is strict. -/
theorem sampleStepwiseRun_strict :
    ∃ s, StepwiseRun Sample.runtime Sample.identityKey [Sample.legacyIdentity, Sample.upgrade] s ∧
      StrictAnchor Sample.runtime [Sample.legacyIdentity, Sample.upgrade] := by
  have h := eq_ok_valueOf (x := validateMultisignatureHistory Sample.runtime Sample.identityKey
    [Sample.legacyIdentity, Sample.upgrade]) (by decide +kernel)
  have run := (stepwiseRun_iff_history _ _).2 _ _ h
  exact ⟨_, run, ((stepwiseRun_iff_history _ _).1 _ _ run).2.1 h⟩

/-- **The upgrade of a loose anchor.** A legacy Identity with a payload is accepted as a first write
and then upgraded, and the history of the state this ends in is refused. -/
theorem looseUpgrade_history_refused :
    ∃ s, StepwiseRun Sample.runtime Sample.identityKey
        [Sample.looseIdentity, Sample.looseUpgrade] s ∧
      s.history = some [Sample.looseIdentity, Sample.looseUpgrade] ∧
      (validateMultisignatureHistory Sample.runtime Sample.identityKey
        [Sample.looseIdentity, Sample.looseUpgrade]).isOk = false := by
  obtain ⟨hfirst, hupgrade, hrefused⟩ :
      (validateIdentityOverwrite Sample.runtime Sample.identityKey Sample.looseIdentity none
        none).isOk = true ∧
      (validateMultisignatureUpdate Sample.runtime Sample.identityKey Sample.looseUpgrade none
        (some Sample.looseIdentity)).isOk = true ∧
      (validateMultisignatureHistory Sample.runtime Sample.identityKey
        [Sample.looseIdentity, Sample.looseUpgrade]).isOk = false := by
    decide +kernel
  have run := StepwiseRun.legacy (eq_ok_valueOf hfirst) (eq_ok_valueOf hupgrade)
  exact ⟨_, run, run.history.2, hrefused⟩

end DecentRegistry
