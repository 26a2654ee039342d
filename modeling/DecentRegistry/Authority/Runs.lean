import DecentRegistry.Abstract.Record
import DecentRegistry.Authority.Steps
import DecentRegistry.Sample.States

/-!
# Runs of the state machine

`Reachable` states are those a run of `validateMultisignatureUpdate` ends in. Each is a complete
2-of-3 state (`Reachable.complete`) and so stands for an abstract record, and each further accepted
envelope is a step of that record (`validateMultisignatureUpdate_refines`); the field discipline of
the machine is that of the record.
-/

namespace DecentRegistry

open Fallible PyValue Abstract

variable {rt : Runtime}

/-- The states of a run. It starts with nothing or with a legacy record; the record key and the
legacy envelope of every call are arbitrary. -/
inductive Reachable (rt : Runtime) : MultisignatureState → Prop
  | start {recordKey e : Bytes} {anchor : Option Bytes} {s : MultisignatureState}
      (h : validateMultisignatureUpdate rt recordKey e none anchor = .ok s) : Reachable rt s
  | step {recordKey e : Bytes} {anchor : Option Bytes} {s t : MultisignatureState}
      (hs : Reachable rt s)
      (h : validateMultisignatureUpdate rt recordKey e (some s) anchor = .ok t) : Reachable rt t

/-- A complete 2-of-3 state. -/
structure MultisignatureState.Complete (s : MultisignatureState) : Prop where
  threshold : s.threshold = 2
  size : s.signerSet.length = 3
  canonical : CanonicalSigners s.signerSet

/-- The record a complete state stands for. -/
def MultisignatureState.head (s : MultisignatureState) (h : s.Complete) : Head :=
  { recordKey := s.recordKey, recordKind := s.recordKind, owner := s.ownerPublicKey,
    epoch := s.epoch, seq := s.seq, policy := ⟨s.signerSet, h.canonical, h.size⟩ }

/-- What is true of every state of a run. -/
structure MultisignatureState.Sound (rt : Runtime) (s : MultisignatureState) : Prop extends
    s.Complete where
  reads : ∃ u, s.Reads rt u

/-! ## The invariant -/

/-- A state made of an envelope with three signers and the threshold two is sound. -/
theorem Candidate.Reads.sound {recordKey e : Bytes} {p : Candidate} {history : Option (List Bytes)}
    {s : MultisignatureState} (hp : p.Reads rt e)
    (hs : candidateState rt recordKey p history = .ok s)
    (hthreshold : p.authorization.threshold = 2) (hsize : p.authorization.signerSet.length = 3) :
    s.Sound rt := by
  have hreads := hp.state hs
  exact
    { threshold := hreads.threshold.trans hthreshold
      size := by rw [hreads.signerSet]; exact hsize
      canonical := hreads.canonical
      reads := ⟨_, hreads⟩ }

/-- A step from nothing, or from a legacy record, ends in a complete state. -/
theorem IsStep.sound_start {recordKey e : Bytes} {p : Candidate} {anchor : Option Bytes}
    {history : Option (List Bytes)} {s : MultisignatureState} (hp : p.Reads rt e)
    (hstep : IsStep rt recordKey e p none anchor history)
    (hs : candidateState rt recordKey p history = .ok s) : s.Sound rt := by
  cases hstep with
  | genesis h => exact hp.sound hs h.threshold h.size
  | upgrade _ h => exact hp.sound hs h.threshold h.size
  | rotateLegacy _ h => exact hp.sound hs h.threshold h.size

/-- A step from a complete state ends in a complete state. -/
theorem IsStep.sound_step {recordKey e : Bytes} {p : Candidate} {history : Option (List Bytes)}
    {current s : MultisignatureState} (hcurrent : current.Sound rt) (hp : p.Reads rt e)
    (hstep : IsStep rt recordKey e p (some current) none history)
    (hs : candidateState rt recordKey p history = .ok s) : s.Sound rt := by
  have hkept (hset : p.authorization.signerSet = current.signerSet) :
      p.authorization.signerSet.length = 3 := by
    rw [hset]
    exact hcurrent.size
  cases hstep with
  | ordinaryUpdate h =>
    exact hp.sound hs (h.threshold.trans hcurrent.threshold) (hkept h.signerSet)
  | replaceSigners h => exact hp.sound hs h.threshold h.size
  | rotate h => exact hp.sound hs (h.threshold.trans hcurrent.threshold) (hkept h.signerSet)

/-- An accepted step from a multisignature state comes with no legacy envelope. -/
theorem IsStep.anchor_eq_none {recordKey e : Bytes} {p : Candidate} {current : MultisignatureState}
    {anchor : Option Bytes} {history : Option (List Bytes)}
    (h : IsStep rt recordKey e p (some current) anchor history) : anchor = none := by
  cases h <;> rfl

/-- **Every state of a run is sound.** -/
theorem Reachable.sound {s : MultisignatureState} (h : Reachable rt s) : s.Sound rt := by
  induction h with
  | start h =>
    obtain ⟨p, history, hp, hstep, -, hs⟩ := validateMultisignatureUpdate_eq_ok.1 h
    exact hstep.sound_start hp hs
  | step _ h ih =>
    obtain ⟨p, history, hp, hstep, -, hs⟩ := validateMultisignatureUpdate_eq_ok.1 h
    obtain rfl := hstep.anchor_eq_none
    exact hstep.sound_step ih hp hs

/-! ## Refinement -/

/-- The owner a rotation installs differs from the owner of the state it rotates. -/
theorem IsRotationFromState.owner_ne {recordKey : Bytes} {p : Candidate}
    {current s : MultisignatureState} {history : List Bytes} {u : MultisignatureUpdate}
    (h : IsRotationFromState rt recordKey p current history) (hcurrent : current.Reads rt u)
    (hs : s.Reads rt p.update) : s.ownerPublicKey ≠ current.ownerPublicKey := by
  obtain ⟨predecessor, hpred, hrotation⟩ := h.rotation
  obtain rfl : u = predecessor := Except.ok.inj (hcurrent.update.symm.trans hpred)
  obtain ⟨v, w, owner, owner', hv, hw, howner, howner', hne⟩ := hrotation.owner
  have hs' := hs.owner
  rw [hs.recordKind, show p.update.authorization.recordKind = .identity from hrotation.recordKind]
    at hs'
  have hc' := hcurrent.owner
  rw [h.currentKind] at hc'
  simp only [ownerPublicKeyField, bind_eq_ok, getItem_eq_ok] at hs' hc'
  obtain ⟨v', hv', hs'⟩ := hs'
  obtain ⟨w', hw', hc'⟩ := hc'
  obtain rfl : v = v' := Option.some.inj (hv.symm.trans hv')
  obtain rfl : w = w' := Option.some.inj (hw.symm.trans hw')
  rw [← Except.ok.inj (howner.symm.trans hs'), ← Except.ok.inj (howner'.symm.trans hc')]
  exact hne

/-- The owner of the state a common transition ends in is the owner it started from. -/
theorem IsCommonTransition.owner_eq {recordKey : Bytes} {p : Candidate}
    {current s : MultisignatureState} (h : IsCommonTransition rt recordKey p current)
    (hs : s.Reads rt p.update) : s.ownerPublicKey = current.ownerPublicKey := by
  have hs' := hs.owner
  rw [hs.recordKind, show p.update.authorization.recordKind = current.recordKind from h.recordKind]
    at hs'
  exact Except.ok.inj (hs'.symm.trans h.owner)

/-- **Refinement.** An accepted envelope is a step of the abstract record. -/
theorem IsStep.refines {recordKey e : Bytes} {p : Candidate} {history : Option (List Bytes)}
    {current s : MultisignatureState} (hcurrent : current.Sound rt) (hsound : s.Sound rt)
    (hp : p.Reads rt e) (hstep : IsStep rt recordKey e p (some current) none history)
    (hs : candidateState rt recordKey p history = .ok s) :
    Head.Step p.authorization.operation (current.head hcurrent.toComplete)
      (s.head hsound.toComplete) := by
  have hreads := hp.state hs
  have hkey := candidateState_recordKey hs
  cases hstep with
  | ordinaryUpdate h =>
    have hs : s.head hsound.toComplete =
        { current.head hcurrent.toComplete with seq := p.seq } := by
      have hset : s.signerSet = current.signerSet := hreads.signerSet.trans h.signerSet
      simp only [MultisignatureState.head, Head.mk.injEq, SignerPolicy.mk.injEq]
      exact ⟨hkey.trans h.recordKey.symm, hreads.recordKind.trans h.recordKind,
        h.owner_eq hreads, hreads.epoch.trans h.epoch, hreads.seq, hset⟩
    rw [h.operation, hs]
    exact .ordinaryUpdate p.seq h.seq
  | replaceSigners h =>
    have hs : s.head hsound.toComplete = { current.head hcurrent.toComplete with
        seq := p.seq, epoch := p.authorization.epoch,
        policy := ⟨s.signerSet, hsound.canonical, hsound.size⟩ } := by
      simp only [MultisignatureState.head, Head.mk.injEq]
      exact ⟨hkey.trans h.recordKey.symm, hreads.recordKind.trans h.recordKind,
        h.owner_eq hreads, hreads.epoch, hreads.seq, trivial⟩
    rw [h.operation, hs]
    exact .replaceSigners _ _ _ h.seq h.epoch
      (fun heq => h.signerSet (hreads.signerSet.symm.trans heq))
  | rotate h =>
    obtain ⟨u, hu⟩ := hcurrent.reads
    have hne := h.owner_ne hu hreads
    obtain ⟨_, -, hrotation⟩ := h.rotation
    have hs : s.head hsound.toComplete = { current.head hcurrent.toComplete with
        seq := current.seq + 1, owner := s.ownerPublicKey } := by
      have hset : s.signerSet = current.signerSet := hreads.signerSet.trans h.signerSet
      simp only [MultisignatureState.head, Head.mk.injEq, SignerPolicy.mk.injEq]
      exact ⟨hkey.trans hrotation.recordKey.symm,
        (hreads.recordKind.trans hrotation.recordKind).trans h.currentKind.symm, trivial,
        hreads.epoch.trans h.epoch, hreads.seq.trans hrotation.seq, hset⟩
    rw [hrotation.operation, hs]
    exact .ownerKeyRotation _ h.currentKind hne

/-! ## Field discipline -/

/-- What an accepted operation leaves alone and what it changes. -/
structure FieldDiscipline (op : Operation) (s t : MultisignatureState) : Prop where
  recordKey : t.recordKey = s.recordKey
  recordKind : t.recordKind = s.recordKind
  seq_lt : s.seq < t.seq
  seq_rotation : op = .ownerKeyRotation → t.seq = s.seq + 1
  epoch_le : s.epoch ≤ t.epoch
  epoch_ne : t.epoch ≠ s.epoch → op = .replaceSigners
  epoch_replace : op = .replaceSigners → s.epoch < t.epoch
  threshold_ne : t.threshold ≠ s.threshold → op = .replaceSigners
  signerSet_ne : t.signerSet ≠ s.signerSet → op = .replaceSigners
  signerSet_replace : op = .replaceSigners → t.signerSet ≠ s.signerSet
  owner_ne : t.ownerPublicKey ≠ s.ownerPublicKey → op = .ownerKeyRotation ∧ s.recordKind = .identity
  owner_rotation : op = .ownerKeyRotation → t.ownerPublicKey ≠ s.ownerPublicKey

/-- The discipline of the abstract record is that of the states that stand for it. -/
theorem fieldDiscipline_of_step {op : Operation} {s t : MultisignatureState} {hs : s.Complete}
    {ht : t.Complete} (h : Head.Step op (s.head hs) (t.head ht)) : FieldDiscipline op s t where
  recordKey := h.recordKey
  recordKind := h.recordKind
  seq_lt := h.seq_lt
  seq_rotation := by
    rintro rfl
    exact h.ownerKeyRotation_spec.2.1
  epoch_le := h.epoch_le
  epoch_ne hne := by
    by_contra hop
    exact hne (h.epoch_eq hop)
  epoch_replace := by
    rintro rfl
    exact h.replaceSigners_spec.1
  threshold_ne hne := absurd (ht.threshold.trans hs.threshold.symm) hne
  signerSet_ne hne := by
    by_contra hop
    exact hne (congrArg SignerPolicy.signers (h.policy_eq hop))
  signerSet_replace := by
    rintro rfl
    exact h.replaceSigners_spec.2
  owner_ne hne := by
    by_cases hop : op = .ownerKeyRotation
    · subst hop
      exact ⟨rfl, h.ownerKeyRotation_spec.1⟩
    · exact absurd (h.owner_eq hop) hne
  owner_rotation := by
    rintro rfl
    exact h.ownerKeyRotation_spec.2.2

/-- **Field discipline.** Every state of a run is a complete 2-of-3 state, and every further
accepted envelope changes the fields its operation may change and no others. -/
theorem reachable_fieldDiscipline (rt : Runtime) (s : MultisignatureState)
    (hs : Reachable rt s) :
    s.Complete ∧ ∀ recordKey e anchor t,
      validateMultisignatureUpdate rt recordKey e (some s) anchor = .ok t →
      ∃ p, decodeMultisignatureCandidate rt e = .ok p ∧
        FieldDiscipline p.authorization.operation s t := by
  refine ⟨hs.sound.toComplete, fun recordKey e anchor t h => ?_⟩
  have ht : Reachable rt t := hs.step h
  obtain ⟨p, history, hp, hstep, -, hstate⟩ := validateMultisignatureUpdate_eq_ok.1 h
  obtain rfl := hstep.anchor_eq_none
  exact ⟨p, decodeMultisignatureCandidate_eq_ok.2 hp,
    fieldDiscipline_of_step (hstep.refines hs.sound ht.sound hp hstate)⟩

/-- A genesis followed by a replacement of signers. -/
theorem sampleRun_fieldDiscipline :
    Sample.activeState.Complete ∧
      ∃ t p, validateMultisignatureUpdate Sample.runtime Sample.providerKey
          Sample.providerReplacement (some Sample.activeState) none = .ok t ∧
        decodeMultisignatureCandidate Sample.runtime Sample.providerReplacement = .ok p ∧
        FieldDiscipline p.authorization.operation Sample.activeState t := by
  obtain ⟨complete, discipline⟩ :=
    reachable_fieldDiscipline Sample.runtime _ (.start Sample.activeState_eq)
  have h := eq_ok_valueOf (x := validateMultisignatureUpdate Sample.runtime Sample.providerKey
    Sample.providerReplacement (some Sample.activeState) none)
    (by rw [Sample.activeState_fields]; decide +kernel)
  obtain ⟨p, hp, hdiscipline⟩ := discipline _ _ _ _ h
  exact ⟨complete, _, p, h, hp, hdiscipline⟩

end DecentRegistry
