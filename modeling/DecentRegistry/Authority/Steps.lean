import DecentRegistry.Authority.Transitions

/-!
# Steps of the state machine

`IsStep` is the transition relation of a multisignature record: what a candidate may do to the
current state, or to a legacy record. Both ways the program takes a step accept exactly the steps
of this relation: `validateMultisignatureUpdate` (`validateMultisignatureUpdate_eq_ok`), which for a
rotation replays the predecessor's history as well, and a round of the replay loop
(`replayStep_eq_ok`).
-/

namespace DecentRegistry

open Fallible PyValue

variable {rt : Runtime}

/-- The steps of a record: from a multisignature state (first index), from a legacy record (second
index) or from nothing, with the history of the state reached. -/
inductive IsStep (rt : Runtime) (recordKey e : Bytes) (p : Candidate) :
    Option MultisignatureState → Option Bytes → Option (List Bytes) → Prop
  | genesis (h : IsGenesis rt recordKey p) : IsStep rt recordKey e p none none (some [e])
  | ordinaryUpdate {current : MultisignatureState} (h : IsOrdinaryUpdate rt recordKey p current) :
      IsStep rt recordKey e p (some current) none (appendHistory current e)
  | replaceSigners {current : MultisignatureState}
      (h : IsSignerReplacement rt recordKey p current) :
      IsStep rt recordKey e p (some current) none (appendHistory current e)
  | upgrade {anchor : Bytes} {legacy : LegacyState} (anchored : legacy.Reads rt recordKey anchor)
      (h : IsUpgrade rt recordKey p legacy) :
      IsStep rt recordKey e p none (some anchor) (some [anchor, e])
  | rotateLegacy {anchor : Bytes} {legacy : LegacyState}
      (anchored : legacy.Reads rt recordKey anchor)
      (h : IsRotationFromLegacy rt recordKey p legacy) :
      IsStep rt recordKey e p none (some anchor) (some [anchor, e])
  | rotate {current : MultisignatureState} {history : List Bytes}
      (h : IsRotationFromState rt recordKey p current history) :
      IsStep rt recordKey e p (some current) none (some (history ++ [e]))

namespace IsStep

variable {recordKey e : Bytes} {p : Candidate} {current : Option MultisignatureState}
  {anchor : Option Bytes} {history : Option (List Bytes)}

/-- A step from a multisignature state is on a record of the same kind. -/
theorem current_recordKind {current : MultisignatureState}
    (h : IsStep rt recordKey e p (some current) anchor history) :
    current.recordKind = p.authorization.recordKind := by
  cases h with
  | ordinaryUpdate h => exact h.recordKind.symm
  | replaceSigners h => exact h.recordKind.symm
  | rotate h =>
    obtain ⟨_, -, hrotation⟩ := h.rotation
    exact h.currentKind.trans hrotation.recordKind.symm

/-- A step is on the record its envelope names. -/
theorem lookupKey (h : IsStep rt recordKey e p current anchor history) :
    p.derivedRecordKey = recordKey := by
  cases h with
  | genesis h => exact h.lookupKey
  | ordinaryUpdate h => exact h.lookupKey
  | replaceSigners h => exact h.lookupKey
  | upgrade _ h => exact h.lookupKey
  | rotateLegacy _ h => exact h.lookupKey
  | rotate h =>
    obtain ⟨_, -, hrotation⟩ := h.rotation
    exact hrotation.lookupKey

end IsStep

/-! ## The two ways to take a step -/

/-- The dispatcher accepts exactly the steps, given that a rotation from a state is accepted exactly
when it is a step and the state satisfies `Verified`. -/
theorem validateMultisignatureUpdateWith_eq_ok
    {rotateFromState : MultisignatureState → Py MultisignatureState}
    {Verified : MultisignatureState → Prop} {recordKey e : Bytes}
    {current : Option MultisignatureState} {anchor : Option Bytes} {s : MultisignatureState}
    (hrotate : ∀ state, rotateFromState state = .ok s ↔
      ∃ (p : Candidate) (history : List Bytes), p.Reads rt e ∧
        IsRotationFromState rt recordKey p state history ∧ Verified state ∧
        candidateState rt recordKey p (some (history ++ [e])) = .ok s) :
    validateMultisignatureUpdateWith rt rotateFromState recordKey e current anchor = .ok s ↔
      ∃ (p : Candidate) (history : Option (List Bytes)), p.Reads rt e ∧
        IsStep rt recordKey e p current anchor history ∧
        (p.authorization.operation = .ownerKeyRotation → ∀ state ∈ current, Verified state) ∧
        candidateState rt recordKey p history = .ok s := by
  simp only [validateMultisignatureUpdateWith, bind_eq_ok, decodeMultisignatureCandidate_eq_ok]
  constructor
  · rintro ⟨p, hp, h⟩
    cases hop : p.authorization.operation with
    | genesis =>
      simp only [hop, bind_eq_ok, raiseIf_eq_ok, validateMultisignatureGenesis_eq_ok, not_or,
        Bool.not_eq_true, Option.isSome_eq_false_iff, Option.isNone_iff_eq_none] at h
      obtain ⟨-, ⟨rfl, rfl⟩, q, hq, hstep, hs⟩ := h
      exact ⟨q, _, hq, .genesis hstep, by simp [hstep.operation], hs⟩
    | ordinaryUpdate =>
      cases current <;> cases anchor <;>
        simp only [hop, throw_eq_ok_iff, validateMultisignatureOrdinaryUpdate_eq_ok] at h
      obtain ⟨q, hq, hstep, hs⟩ := h
      exact ⟨q, _, hq, .ordinaryUpdate hstep, by simp [hstep.operation], hs⟩
    | replaceSigners =>
      cases current <;> cases anchor <;>
        simp only [hop, throw_eq_ok_iff, validateMultisignatureSignerReplacement_eq_ok] at h
      obtain ⟨q, hq, hstep, hs⟩ := h
      exact ⟨q, _, hq, .replaceSigners hstep, by simp [hstep.operation], hs⟩
    | upgrade =>
      cases current <;> cases anchor <;>
        simp only [hop, throw_eq_ok_iff, validateMultisignatureUpgrade_eq_ok] at h
      obtain ⟨q, legacy, hq, anchored, hstep, hs⟩ := h
      exact ⟨q, _, hq, .upgrade anchored hstep, by simp, hs⟩
    | ownerKeyRotation =>
      cases current <;> cases anchor <;>
        simp only [hop, throw_eq_ok_iff, validateOwnerRotationFromLegacy_eq_ok, hrotate] at h
      · obtain ⟨q, legacy, hq, anchored, hstep, hs⟩ := h
        exact ⟨q, _, hq, .rotateLegacy anchored hstep, by simp, hs⟩
      · obtain ⟨q, history, hq, hstep, hverified, hs⟩ := h
        exact ⟨q, _, hq, .rotate hstep, by simpa using fun _ => hverified, hs⟩
  · rintro ⟨p, history, hp, hstep, hverified, hs⟩
    refine ⟨p, hp, ?_⟩
    cases hstep with
    | genesis h =>
      simp only [h.operation, bind_eq_ok, raiseIf_eq_ok, validateMultisignatureGenesis_eq_ok]
      exact ⟨(), by simp, p, hp, h, hs⟩
    | ordinaryUpdate h =>
      simp only [h.operation, validateMultisignatureOrdinaryUpdate_eq_ok]
      exact ⟨p, hp, h, hs⟩
    | replaceSigners h =>
      simp only [h.operation, validateMultisignatureSignerReplacement_eq_ok]
      exact ⟨p, hp, h, hs⟩
    | upgrade anchored h =>
      simp only [h.operation, validateMultisignatureUpgrade_eq_ok]
      exact ⟨p, _, hp, anchored, h, hs⟩
    | rotateLegacy anchored h =>
      simp only [h.operation, validateOwnerRotationFromLegacy_eq_ok]
      exact ⟨p, _, hp, anchored, h, hs⟩
    | rotate h =>
      obtain ⟨_, -, hrotation⟩ := h.rotation
      simp only [hrotation.operation, hrotate]
      exact ⟨p, _, hp, h, hverified hrotation.operation _ rfl, hs⟩

/-- The history of a state replays to that state, up to the state's bytes. -/
def HistoryVerified (rt : Runtime) (recordKey : Bytes) (s : MultisignatureState) : Prop :=
  ∀ history ∈ s.history, ∃ verified,
    validateMultisignatureHistory rt recordKey history = .ok verified ∧
      verified.stateHash = s.stateHash ∧ verified.signedUpdateBytes = s.signedUpdateBytes

/-- **`validate_multisignature_update` takes exactly the steps of `IsStep`**, after checking the
history where it rotates from a multisignature state. -/
theorem validateMultisignatureUpdate_eq_ok {recordKey e : Bytes}
    {current : Option MultisignatureState} {anchor : Option Bytes} {s : MultisignatureState} :
    validateMultisignatureUpdate rt recordKey e current anchor = .ok s ↔
      ∃ (p : Candidate) (history : Option (List Bytes)), p.Reads rt e ∧
        IsStep rt recordKey e p current anchor history ∧
        (p.authorization.operation = .ownerKeyRotation →
          ∀ state ∈ current, HistoryVerified rt recordKey state) ∧
        candidateState rt recordKey p history = .ok s := by
  refine validateMultisignatureUpdateWith_eq_ok fun state => ?_
  rw [validateOwnerRotationFromState_eq_ok]
  constructor
  · rintro ⟨p, history, hp, h, hverified, hs⟩
    refine ⟨p, history, hp, h, fun history' hmem => ?_, hs⟩
    obtain rfl : history = history' := Option.some.inj (h.complete.symm.trans hmem)
    exact hverified _ rfl
  · rintro ⟨p, history, hp, h, hverified, hs⟩
    refine ⟨p, history, hp, h, fun replay hreplay => ?_, hs⟩
    obtain rfl := Option.some.inj hreplay
    exact hverified history h.complete

/-! ## Replay -/

namespace ReplayState

/-- The multisignature state a replay stands at. -/
def current : ReplayState → Option MultisignatureState
  | legacyAnchor _ => none
  | state s => some s

/-- The legacy anchor a replay stands at. -/
def anchor : ReplayState → Option Bytes
  | legacyAnchor e => some e
  | state _ => none

@[simp] theorem current_state (s : MultisignatureState) : (state s).current = some s := rfl

@[simp] theorem anchor_state (s : MultisignatureState) : (state s).anchor = none := rfl

@[simp] theorem current_legacyAnchor (e : Bytes) : (legacyAnchor e).current = none := rfl

@[simp] theorem anchor_legacyAnchor (e : Bytes) : (legacyAnchor e).anchor = some e := rfl

end ReplayState

/-- **A round of the replay takes exactly the steps of `IsStep`.** -/
theorem replayStep_eq_ok {recordKey e : Bytes} {r t : ReplayState} :
    replayStep rt recordKey r e = .ok t ↔
      ∃ (p : Candidate) (history : Option (List Bytes)) (s : MultisignatureState), p.Reads rt e ∧
        IsStep rt recordKey e p r.current r.anchor history ∧
        candidateState rt recordKey p history = .ok s ∧ t = .state s := by
  cases r with
  | legacyAnchor anchor =>
    simp only [replayStep, bind_eq_ok, decodeMultisignatureCandidate_eq_ok]
    constructor
    · rintro ⟨p, hp, h⟩
      cases hop : p.authorization.operation <;> simp only [hop, throw_eq_ok_iff, bind_eq_ok,
        validateMultisignatureUpgrade_eq_ok, validateOwnerRotationFromLegacy_eq_ok,
        pure_eq_ok] at h
      · obtain ⟨s, ⟨q, legacy, hq, anchored, hstep, hs⟩, rfl⟩ := h
        exact ⟨q, _, s, hq, .upgrade anchored hstep, hs, rfl⟩
      · obtain ⟨s, ⟨q, legacy, hq, anchored, hstep, hs⟩, rfl⟩ := h
        exact ⟨q, _, s, hq, .rotateLegacy anchored hstep, hs, rfl⟩
    · rintro ⟨p, history, s, hp, hstep, hs, rfl⟩
      refine ⟨p, hp, ?_⟩
      cases hstep with
      | upgrade anchored h =>
        simp only [h.operation, bind_eq_ok, validateMultisignatureUpgrade_eq_ok, pure_eq_ok]
        exact ⟨s, ⟨p, _, hp, anchored, h, hs⟩, rfl⟩
      | rotateLegacy anchored h =>
        simp only [h.operation, bind_eq_ok, validateOwnerRotationFromLegacy_eq_ok, pure_eq_ok]
        exact ⟨s, ⟨p, _, hp, anchored, h, hs⟩, rfl⟩
  | state current =>
    -- inside a replay the dispatcher is never asked to rotate from a state
    have hupdate (s : MultisignatureState) :
        validateMultisignatureUpdateWith rt (fun _ => throw (valueError "")) recordKey e
            (some current) none = .ok s ↔
          ∃ (p : Candidate) (history : Option (List Bytes)), p.Reads rt e ∧
            IsStep rt recordKey e p (some current) none history ∧
            (p.authorization.operation = .ownerKeyRotation → ∀ state ∈ some current, False) ∧
            candidateState rt recordKey p history = .ok s :=
      validateMultisignatureUpdateWith_eq_ok (by simp)
    simp only [replayStep, bind_eq_ok, decodeMultisignatureCandidate_eq_ok]
    constructor
    · rintro ⟨p, hp, h⟩
      split at h
      · simp only [bind_eq_ok, validateOwnerRotationFromState_eq_ok, pure_eq_ok] at h
        obtain ⟨s, ⟨q, history, hq, hstep, -, hs⟩, rfl⟩ := h
        exact ⟨q, _, s, hq, .rotate hstep, hs, rfl⟩
      · simp only [bind_eq_ok, hupdate, pure_eq_ok] at h
        obtain ⟨s, ⟨q, history, hq, hstep, -, hs⟩, rfl⟩ := h
        exact ⟨q, history, s, hq, hstep, hs, rfl⟩
    · rintro ⟨p, history, s, hp, hstep, hs, rfl⟩
      refine ⟨p, hp, ?_⟩
      split
      · rename_i hop
        simp only [bind_eq_ok, validateOwnerRotationFromState_eq_ok, pure_eq_ok]
        cases hstep with
        | ordinaryUpdate h => cases h.operation.symm.trans hop
        | replaceSigners h => cases h.operation.symm.trans hop
        | rotate h => exact ⟨s, ⟨p, _, hp, h, by simp, hs⟩, rfl⟩
      · rename_i hop
        simp only [bind_eq_ok, hupdate, pure_eq_ok]
        exact ⟨s, ⟨p, history, hp, hstep, fun h => absurd h hop, hs⟩, rfl⟩

/-- The anchor of a replay: a signed legacy Identity, or the genesis of an Identity. -/
inductive IsAnchor (rt : Runtime) (recordKey first : Bytes) : ReplayState → Prop
  | legacy {legacy : LegacyState} (reads : legacy.Reads rt recordKey first)
      (recordKind : legacy.recordKind = .identity) (shape : legacy.isIdentityRecord = true) :
      IsAnchor rt recordKey first (.legacyAnchor first)
  | genesis {p : Candidate} {s : MultisignatureState} (reads : p.Reads rt first)
      (h : IsGenesis rt recordKey p) (recordKind : p.authorization.recordKind = .identity)
      (state : candidateState rt recordKey p (some [first]) = .ok s) :
      IsAnchor rt recordKey first (.state s)

/-- A legacy envelope does not decode as a multisignature envelope. -/
theorem LegacyState.Reads.decode_eq_error {legacy : LegacyState} {recordKey e : Bytes}
    (h : legacy.Reads rt recordKey e) : ∃ err, decodeMultisignatureEnvelope rt e = .error err := by
  obtain ⟨_, hsigned, -⟩ := h.signed
  refine eq_error_of_forall_ne_ok fun env henv => ?_
  have := isMultisignatureEnvelope_of_decode henv
  rw [isMultisignatureEnvelope_of_legacy hsigned] at this
  cases this

theorem replayAnchor_eq_ok {recordKey first : Bytes} {r : ReplayState} :
    replayAnchor rt recordKey first = .ok r ↔ IsAnchor rt recordKey first r := by
  constructor
  · intro h
    unfold replayAnchor at h
    split at h
    · simp only [bind_eq_ok, raiseIf_eq_ok, decodeLegacyState_eq_ok, pure_eq_ok, not_or, not_not,
        Bool.not_eq_true, Bool.not_eq_false'] at h
      obtain ⟨legacy, hreads, -, ⟨hkind, hshape⟩, rfl⟩ := h
      exact .legacy hreads hkind hshape
    · rename_i env henv
      simp only [bind_eq_ok, raiseIf_eq_ok, not_not, validateMultisignatureGenesis_eq_ok,
        pure_eq_ok] at h
      obtain ⟨u, hu, -, hkind, -, -, s, ⟨p, hp, hgenesis, hs⟩, rfl⟩ := h
      refine .genesis hp hgenesis ?_ hs
      obtain rfl : p.envelope = env := Except.ok.inj (hp.envelope.symm.trans henv)
      rw [hp.signedUpdateBytes] at hu
      obtain rfl : p.update = u := Except.ok.inj (hp.update.symm.trans hu)
      exact hkind
  · rintro (⟨hreads, hkind, hshape⟩ | ⟨hp, h, hkind, hs⟩)
    · obtain ⟨err, herr⟩ := hreads.decode_eq_error
      simp only [replayAnchor, herr, bind_eq_ok, raiseIf_eq_ok, decodeLegacyState_eq_ok, pure_eq_ok]
      exact ⟨_, hreads, (), by simp [hkind, hshape], trivial⟩
    · rename_i p s
      simp only [replayAnchor, hp.envelope, bind_eq_ok, raiseIf_eq_ok, not_not,
        validateMultisignatureGenesis_eq_ok, pure_eq_ok, hp.signedUpdateBytes]
      exact ⟨_, hp.update, (), hkind, (), h.operation, s, ⟨p, hp, h, hs⟩, rfl⟩

end DecentRegistry
