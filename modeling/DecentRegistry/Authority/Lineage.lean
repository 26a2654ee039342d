import DecentRegistry.Authority.History
import DecentRegistry.Authority.Standalone

/-!
# Lineages of an Identity

One envelope succeeds another when it is a newer legacy record of the same owner, or the next entry
of a stepwise run (`Succession`). A `Lineage` goes through such successions from one SignedUpdate to
another. The owner at its end is the owner at its beginning, unless it goes through an owner-key
rotation (`Lineage.owner`).

An envelope that `validate_identity_overwrite` accepts ends a stepwise run through the existing one
(`validateIdentityOverwrite_run`).
-/

namespace DecentRegistry

open Fallible PyValue Relation

variable {rt : Runtime} {recordKey : Bytes}

/-! ## Owners -/

/-- The Owner Public Key in an envelope's SignedUpdate. -/
def envelopeOwner (rt : Runtime) (kind : RecordKind) (e : Bytes) : Py Bytes := do
  let signedUpdate ← decodeCanonicalSignedUpdate rt (← signedUpdateOf rt e)
  ownerPublicKeyField kind signedUpdate.recordFields

theorem envelopeOwner_candidate {p : Candidate} {e : Bytes} (kind : RecordKind)
    (h : p.Reads rt e) : envelopeOwner rt kind e = ownerPublicKeyField kind p.recordFields := by
  simp [envelopeOwner, signedUpdateOf_candidate h,
    decodeMultisignatureSignedUpdate_eq_ok.1 h.update, Candidate.update]

/-- The owner a state keeps is the owner in its envelope. -/
theorem envelopeOwner_state {p : Candidate} {e : Bytes} {history : Option (List Bytes)}
    {s : MultisignatureState} (h : p.Reads rt e)
    (hs : candidateState rt recordKey p history = .ok s) :
    envelopeOwner rt s.recordKind e = .ok s.ownerPublicKey := by
  rw [envelopeOwner_candidate _ h]
  exact (h.state hs).owner

theorem envelopeOwner_legacy {legacy : LegacyState} {e : Bytes}
    (h : legacy.Reads rt recordKey e) (hkind : legacy.recordKind = .identity) :
    envelopeOwner rt .identity e = .ok legacy.ownerPublicKey := by
  obtain ⟨_, -, howner, -⟩ := h.identity hkind
  simp [envelopeOwner, signedUpdateOf_legacy h, h.update, ownerPublicKeyField, howner]

/-! ## The end of a run -/

/-- How a run came to its last envelope. -/
theorem StepwiseRun.snoc_cases {l : List Bytes} {e : Bytes} {s : MultisignatureState}
    (run : StepwiseRun rt recordKey (l ++ [e]) s) :
    (l = [] ∧ validateMultisignatureUpdate rt recordKey e none none = .ok s) ∨
      (∃ anchor r, l = [anchor] ∧ validateIdentityOverwrite rt recordKey anchor none none = .ok r ∧
        validateMultisignatureUpdate rt recordKey e none (some anchor) = .ok s) ∨
      ∃ t, StepwiseRun rt recordKey l t ∧
        validateMultisignatureUpdate rt recordKey e (some t) none = .ok s := by
  generalize hm : l ++ [e] = m at run
  cases run with
  | @genesis e' _ h =>
    have hm' : l ++ [e] = [] ++ [e'] := hm
    obtain ⟨rfl, he⟩ := List.append_inj' hm' rfl
    obtain rfl := List.singleton_inj.1 he
    exact .inl ⟨rfl, h⟩
  | @legacy anchor e' r _ first h =>
    have hm' : l ++ [e] = [anchor] ++ [e'] := hm
    obtain ⟨rfl, he⟩ := List.append_inj' hm' rfl
    obtain rfl := List.singleton_inj.1 he
    exact .inr (.inl ⟨anchor, r, rfl, first, h⟩)
  | @step l' e' t _ run h =>
    obtain ⟨rfl, he⟩ := List.append_inj' hm rfl
    obtain rfl := List.singleton_inj.1 he
    exact .inr (.inr ⟨t, run, h⟩)

/-- The state of a run stands for its last envelope. -/
theorem StepwiseRun.reads {l : List Bytes} {e : Bytes} {s : MultisignatureState}
    (run : StepwiseRun rt recordKey (l ++ [e]) s) :
    ∃ (p : Candidate) (history : Option (List Bytes)), p.Reads rt e ∧
      candidateState rt recordKey p history = .ok s := by
  obtain ⟨current, anchor, h⟩ : ∃ current anchor,
      validateMultisignatureUpdate rt recordKey e current anchor = .ok s := by
    rcases run.snoc_cases with ⟨-, h⟩ | ⟨_, _, -, -, h⟩ | ⟨_, -, h⟩
    · exact ⟨_, _, h⟩
    · exact ⟨_, _, h⟩
    · exact ⟨_, _, h⟩
  obtain ⟨p, history, hp, -, -, hs⟩ := validateMultisignatureUpdate_eq_ok.1 h
  exact ⟨p, history, hp, hs⟩

/-! ## Successions -/

/-- One envelope after another. -/
inductive Succession (rt : Runtime) (recordKey : Bytes) : Bytes → Bytes → Prop
  | legacy {x y : Bytes} {previous next : LegacyState} (hx : previous.Reads rt recordKey x)
      (hy : next.Reads rt recordKey y) (previousKind : previous.recordKind = .identity)
      (nextKind : next.recordKind = .identity) (newer : previous.seq < next.seq)
      (owner : next.ownerPublicKey = previous.ownerPublicKey) : Succession rt recordKey x y
  | accepted {l : List Bytes} {x y : Bytes} {s : MultisignatureState}
      (run : StepwiseRun rt recordKey (l ++ [x] ++ [y]) s) : Succession rt recordKey x y

/-- A multisignature envelope whose operation is an owner-key rotation. -/
def IsOwnerKeyRotation (rt : Runtime) (e : Bytes) : Prop :=
  ∃ p, decodeMultisignatureCandidate rt e = .ok p ∧ p.authorization.operation = .ownerKeyRotation

/-- A step from a legacy Identity keeps its owner or rotates it. -/
theorem owner_of_legacy_step {p : Candidate} {e anchor owner : Bytes}
    {history : Option (List Bytes)} {r : IdentityOverwriteResult}
    (first : validateIdentityOverwrite rt recordKey anchor none none = .ok r) (hp : p.Reads rt e)
    (hstep : IsStep rt recordKey e p none (some anchor) history)
    (howner : envelopeOwner rt .identity anchor = .ok owner) :
    envelopeOwner rt .identity e = .ok owner ∨ p.authorization.operation = .ownerKeyRotation := by
  cases hstep with
  | upgrade hreads h =>
    have hkind := validateIdentityOverwrite_legacy first hreads
    obtain rfl := Except.ok.inj (howner.symm.trans (envelopeOwner_legacy hreads hkind))
    obtain ⟨_, -, hfield, -⟩ := hreads.identity hkind
    have hsame := h.owner
    rw [SameOwnerField, hkind, if_pos rfl, hfield] at hsame
    obtain ⟨v, hv, hbytes⟩ := Option.bind_eq_some_iff.1 hsame
    obtain rfl := Value.asBytes?_eq_some.1 hbytes
    exact .inl (by rw [envelopeOwner_candidate _ hp]; simp [ownerPublicKeyField, hv])
  | rotateLegacy _ h => exact .inr h.operation

/-- A step from an Identity state keeps its owner or rotates it. -/
theorem owner_of_state_step {p : Candidate} {e : Bytes} {history : Option (List Bytes)}
    {current : MultisignatureState} (hkind : current.recordKind = .identity) (hp : p.Reads rt e)
    (hstep : IsStep rt recordKey e p (some current) none history) :
    envelopeOwner rt .identity e = .ok current.ownerPublicKey ∨
      p.authorization.operation = .ownerKeyRotation := by
  rw [envelopeOwner_candidate _ hp, ← hkind]
  cases hstep with
  | ordinaryUpdate h => exact .inl h.owner
  | replaceSigners h => exact .inl h.owner
  | rotate h =>
    obtain ⟨_, -, hrotation⟩ := h.rotation
    exact .inr hrotation.operation

/-- **A succession keeps the owner or rotates it.** -/
theorem Succession.owner {x y owner : Bytes} (h : Succession rt recordKey x y)
    (hx : envelopeOwner rt .identity x = .ok owner) :
    envelopeOwner rt .identity y = .ok owner ∨ IsOwnerKeyRotation rt y := by
  cases h with
  | legacy hreads hnext previousKind nextKind newer same =>
    obtain rfl := Except.ok.inj (hx.symm.trans (envelopeOwner_legacy hreads previousKind))
    exact .inl (by rw [envelopeOwner_legacy hnext nextKind, same])
  | @accepted l _ _ s run =>
    have hrotates {p : Candidate} (hp : p.Reads rt y)
        (hop : p.authorization.operation = .ownerKeyRotation) : IsOwnerKeyRotation rt y :=
      ⟨p, decodeMultisignatureCandidate_eq_ok.2 hp, hop⟩
    rcases run.snoc_cases with ⟨hnil, -⟩ | ⟨anchor, r, hanchor, first, h⟩ | ⟨t, run', h⟩
    · simp at hnil
    · obtain ⟨-, rfl⟩ : l = [] ∧ x = anchor := by
        simpa using List.append_eq_singleton_iff.1 hanchor
      obtain ⟨p, history, hp, hstep, -, -⟩ := validateMultisignatureUpdate_eq_ok.1 h
      exact (owner_of_legacy_step first hp hstep hx).imp_right (hrotates hp)
    · obtain ⟨p, history, hp, hstep, -, -⟩ := validateMultisignatureUpdate_eq_ok.1 h
      obtain ⟨q, _, hq, ht⟩ := run'.reads
      have hkind := run'.history.1
      have howner := envelopeOwner_state hq ht
      rw [hkind, hx] at howner
      obtain rfl := Except.ok.inj howner
      exact (owner_of_state_step hkind hp hstep).imp_right (hrotates hp)

/-- Every envelope of a run leads to the last. -/
theorem StepwiseRun.leads {l : List Bytes} {s : MultisignatureState}
    (run : StepwiseRun rt recordKey l s) :
    ∀ x ∈ l, ∀ e, l.getLast? = some e → ReflTransGen (Succession rt recordKey) x e := by
  induction run with
  | @genesis e' s h hkind =>
    intro x hx e he
    obtain rfl := List.mem_singleton.1 hx
    obtain rfl := Option.some.inj he
    exact .refl
  | @legacy anchor e' r s first h =>
    intro x hx e he
    obtain rfl : e' = e := by simpa using he
    rcases List.mem_pair.1 hx with rfl | rfl
    · exact .single (.accepted (l := []) (.legacy first h))
    · exact .refl
  | @step l e' s t run h ih =>
    intro x hx e he
    obtain rfl : e' = e := by simpa using he
    rcases List.mem_append.1 hx with hx | hx
    · obtain ⟨l', z, rfl⟩ := (List.eq_nil_or_concat' l).resolve_left run.ne_nil
      exact (ih x hx z (by simp)).tail (.accepted (run.step h))
    · obtain rfl := List.mem_singleton.1 hx
      exact .refl

/-! ## Lineages -/

/-- The same SignedUpdate, or an envelope and one that succeeds it. -/
def Leads (rt : Runtime) (recordKey x y : Bytes) : Prop :=
  signedUpdateOf rt y = signedUpdateOf rt x ∨ Succession rt recordKey x y

/-- An envelope lies in the validated past of another. -/
def Lineage (rt : Runtime) (recordKey : Bytes) : Bytes → Bytes → Prop :=
  ReflTransGen (Leads rt recordKey)

/-- An envelope is reached from another by a lineage with an owner-key rotation. -/
def RotatedSince (rt : Runtime) (recordKey a b : Bytes) : Prop :=
  ∃ x y, Lineage rt recordKey a x ∧ Succession rt recordKey x y ∧ IsOwnerKeyRotation rt y ∧
    Lineage rt recordKey y b

theorem lineage_of_run {l : List Bytes} {s : MultisignatureState} {x e : Bytes}
    (run : StepwiseRun rt recordKey l s) (hx : x ∈ l) (he : l.getLast? = some e) :
    Lineage rt recordKey x e :=
  ReflTransGen.mono (fun _ _ => Or.inr) _ _ (run.leads x hx e he)

/-- **The owner along a lineage** is the same, unless the lineage goes through a rotation. -/
theorem Lineage.owner {a b owner : Bytes} (h : Lineage rt recordKey a b)
    (ha : envelopeOwner rt .identity a = .ok owner) :
    envelopeOwner rt .identity b = .ok owner ∨ RotatedSince rt recordKey a b := by
  induction h with
  | refl => exact .inl ha
  | @tail x y hax hxy ih =>
    rcases ih with hx | ⟨x', y', hax', hxy', hrotation, hyx⟩
    · rcases hxy with hsame | hxy
      · exact .inl (by rw [envelopeOwner, hsame]; exact hx)
      · exact (hxy.owner hx).imp_right fun hrotation => ⟨x, y, hax, hxy, hrotation, .refl⟩
    · exact .inr ⟨x', y', hax', hxy', hrotation, hyx.tail hxy⟩

/-! ## Accepted Identities -/

/-- What `validate_identity_overwrite` accepts as a multisignature envelope is an Identity. -/
theorem recordKind_of_identityOverwrite {p : Candidate} {e : Bytes} {v : Value}
    (hp : p.Reads rt e) (h : p.recordFields.get? 2 = some v) :
    p.authorization.recordKind = .identity := by
  by_contra hne
  have hbinding := hp.binding
  rw [RecordKind.eq_provider_of_ne hne] at hbinding
  rw [Dict.get?_eq_none_of_keysAre hbinding.1 (by simp)] at h
  cases h

/-- A legacy envelope is accepted over none but a legacy one. -/
theorem not_multisignature_of_legacyOverwrite {e : Bytes} {existing : Option Bytes}
    {chain : Option (List Bytes)} {r : IdentityOverwriteResult}
    (he : isMultisignatureEnvelope rt e = false)
    (h : validateIdentityOverwrite rt recordKey e existing chain = .ok r) :
    ∀ x ∈ existing, isMultisignatureEnvelope rt x = false := by
  simp only [validateIdentityOverwrite, he, Bool.false_eq_true, if_false, bind_eq_ok,
    raiseIf_eq_ok, not_exists, not_and, Bool.not_eq_true] at h
  exact h.choose_spec.1

/-- **An accepted Identity ends a run** through the existing envelope. -/
theorem validateIdentityOverwrite_run {e : Bytes} {existing : Option Bytes}
    {chain : Option (List Bytes)} {r : IdentityOverwriteResult}
    (hmultisig : isMultisignatureEnvelope rt e = true)
    (h : validateIdentityOverwrite rt recordKey e existing chain = .ok r) :
    ∃ l s, StepwiseRun rt recordKey (l ++ [e]) s ∧ ∀ x ∈ existing, l.getLast? = some x ∧
      if isMultisignatureEnvelope rt x then
        ∃ t, validateMultisignatureHistory rt recordKey l = .ok t
      else ∃ legacy : LegacyState, legacy.Reads rt recordKey x ∧ legacy.recordKind = .identity := by
  simp only [validateIdentityOverwrite, hmultisig, if_true, bind_eq_ok, getItem_eq_ok] at h
  obtain ⟨s, hs, u, hu, -, -, -, -, v, hv, -⟩ := h
  obtain ⟨p, history, current, anchor, hp, hfrom, hstep, hverified, hstate⟩ :=
    validateMultisignatureTransition_spec hs
  have hreads := hp.state hstate
  obtain rfl : p.update = u := Except.ok.inj (hreads.update.symm.trans hu)
  have hkind := recordKind_of_identityOverwrite hp hv
  have hupdate := validateMultisignatureUpdate_eq_ok.2 ⟨p, history, hp, hstep, hverified, hstate⟩
  cases existing with
  | none =>
    obtain ⟨rfl, rfl⟩ := hfrom
    exact ⟨[], s, .genesis hupdate (hreads.recordKind.trans hkind), by simp⟩
  | some x =>
    simp only [StepsFrom] at hfrom
    split at hfrom
    · rename_i hx
      obtain ⟨current, rfl, rfl, hcurrent⟩ := hfrom
      obtain ⟨l, hlast, hl⟩ : ∃ l : List Bytes, l.getLast? = some x ∧
          validateMultisignatureHistory rt recordKey l = .ok current := by
        cases chain with
        | some chain => exact ⟨chain, hcurrent⟩
        | none =>
          obtain ⟨henvelope, hop, hhistory⟩ := hcurrent
          have hcurrentKind : current.recordKind = .identity :=
            hstep.current_recordKind.trans hkind
          exact ⟨[x], rfl, validateMultisignatureHistory_singleton henvelope hcurrentKind
            fun hnone => hhistory ⟨hkind, hnone⟩⟩
      refine ⟨l, s, .step ((stepwiseRun_of_history hl)) hupdate, ?_⟩
      rintro _ ⟨⟩
      exact ⟨hlast, by rw [if_pos hx]; exact ⟨current, hl⟩⟩
    · rename_i hx
      obtain ⟨rfl, rfl⟩ := hfrom
      obtain ⟨legacy, hlegacy, hlegacyKind⟩ : ∃ legacy : LegacyState,
          legacy.Reads rt recordKey x ∧ legacy.recordKind = .identity := by
        cases hstep with
        | upgrade hreads h => exact ⟨_, hreads, h.recordKind.symm.trans hkind⟩
        | rotateLegacy hreads h => exact ⟨_, hreads, h.legacyKind⟩
      obtain ⟨r, hfirst⟩ := hlegacy.first_write hlegacyKind
      refine ⟨[x], s, .legacy hfirst hupdate, ?_⟩
      rintro _ ⟨⟩
      exact ⟨rfl, by rw [if_neg hx]; exact ⟨legacy, hlegacy, hlegacyKind⟩⟩

end DecentRegistry
