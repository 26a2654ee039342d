import DecentRegistry.Authority.Legacy
import DecentRegistry.Sample.Records
import DecentRegistry.Wire.Decoders

/-!
# Runs of the legacy overwrite check

Calls of `validate_signed_update_overwrite`, with state update on, over one shared `SeqState`. A
call that raises changes nothing, and one that is accepted sets the entry of its own record key to
the owner and the sequence number of the SignedUpdate it accepted (`OverwriteCall.next_of_error`,
`OverwriteCall.next_of_ok`). So over a whole run an entry, once there, keeps its owner, and its
sequence number rises with every accepted call on the key (`overwriteRuns_rule`). -/

namespace DecentRegistry

open Fallible PyValue

variable {rt : Runtime}

/-! ## Effects on the state -/

/-- The computation raises and leaves the state as it was, or returns, with a result and a state
that satisfy `P`. -/
def Checked.Effect {α : Type} (x : Checked α) (seqState : SeqState) (P : α → SeqState → Prop) :
    Prop :=
  (∃ e, x.run seqState = (.error e, seqState)) ∨
    ∃ a seqState', x.run seqState = (.ok a, seqState') ∧ P a seqState'

namespace Checked

variable {α β : Type} {seqState : SeqState} {P : α → SeqState → Prop}

/-- A check before a computation. -/
theorem effect_lift_bind {x : Py β} {f : β → Checked α}
    (h : ∀ b, x = .ok b → (f b).Effect seqState P) : (lift x >>= f).Effect seqState P := by
  cases x with
  | error e => exact .inl ⟨e, rfl⟩
  | ok b => exact h b rfl

theorem Effect.mono {Q : α → SeqState → Prop} {x : Checked α} (h : x.Effect seqState P)
    (hPQ : ∀ a seqState', P a seqState' → Q a seqState') : x.Effect seqState Q := by
  rcases h with hraises | ⟨a, seqState', hok, h⟩
  · exact .inl hraises
  · exact .inr ⟨a, seqState', hok, hPQ _ _ h⟩

/-- The state that is set. -/
theorem effect_set {P : Unit → SeqState → Prop} {seqState' : SeqState} (h : P () seqState') :
    (set seqState' : Checked Unit).Effect seqState P :=
  .inr ⟨(), seqState', rfl, h⟩

/-- What is computed from the state. -/
theorem effect_get_bind {f : SeqState → Checked α} (h : (f seqState).Effect seqState P) :
    (get >>= f).Effect seqState P := h

/-- A result after a computation. -/
theorem effect_bind_pure {Q : Unit → SeqState → Prop} {x : Checked Unit} {a : α}
    (h : x.Effect seqState Q) (hQ : ∀ seqState', Q () seqState' → P a seqState') :
    (x >>= fun _ => pure a).Effect seqState P := by
  have hrun : (x >>= fun _ => pure a).run seqState =
      match x.run seqState with
      | (.error e, seqState') => (.error e, seqState')
      | (.ok _, seqState') => (.ok a, seqState') := by
    rw [ExceptT.run_bind]
    rcases hx : x.run seqState with ⟨_ | _, seqState'⟩ <;>
      simp [Bind.bind, StateT.bind, hx] <;> rfl
  rcases h with ⟨e, he⟩ | ⟨⟨⟩, seqState', hok, h⟩
  · exact .inl ⟨e, by rw [hrun, he]⟩
  · exact .inr ⟨a, seqState', by rw [hrun, hok], hQ _ h⟩

end Checked

/-- The binding of sequence number and owner sets the entry to what it accepted. -/
theorem enforceSeqAndOwnerBinding_effect (recordKey : Bytes) (seq : ℕ) (ownerPublicKey : Bytes)
    (seqState : SeqState) :
    (enforceSeqAndOwnerBinding recordKey seq ownerPublicKey true).Effect seqState fun _ seqState' =>
      seqState' = Function.update seqState recordKey (some { ownerPublicKey, seq }) := by
  unfold enforceSeqAndOwnerBinding
  apply Checked.effect_get_bind
  cases hprev : seqState recordKey with
  | none => exact Checked.effect_set rfl
  | some prev =>
    apply Checked.effect_lift_bind
    intro _ _
    apply Checked.effect_lift_bind
    intro _ howner
    rw [raiseIf_eq_ok, not_not] at howner
    apply Checked.effect_set
    rw [howner]

/-- What `validate_provider_update` and `validate_identity_update` do to the state. -/
theorem validateUpdate_effect (extract : SignedUpdate → Py (Bytes × Bytes)) (recordKey
    signedUpdateBytes signature : Bytes) (seqState : SeqState) :
    (validateUpdate rt extract recordKey signedUpdateBytes signature true).Effect seqState
      fun u seqState' => ∃ owner, decodeSignedUpdateStrict rt signedUpdateBytes = .ok u ∧
        extract u = .ok (recordKey, owner) ∧
        seqState' = Function.update seqState recordKey
          (some { ownerPublicKey := owner, seq := u.seq }) := by
  unfold validateUpdate
  apply Checked.effect_lift_bind
  intro u hu
  apply Checked.effect_lift_bind
  intro keys hextract
  obtain ⟨key, owner⟩ := keys
  apply Checked.effect_lift_bind
  intro _ hkey
  rw [raiseIf_eq_ok, not_not] at hkey
  rw [hkey] at hextract
  apply Checked.effect_lift_bind
  intro valid _
  apply Checked.effect_lift_bind
  intro _ _
  apply Checked.effect_bind_pure (enforceSeqAndOwnerBinding_effect recordKey u.seq owner seqState)
  intro seqState' hset
  exact ⟨owner, hu, hextract, hset⟩

/-- **What one call does to the state.** -/
theorem validateSignedUpdateOverwrite_effect (rt : Runtime)
    (recordKey signedUpdateBytes signature : Bytes)
    (seqState : SeqState) :
    (validateSignedUpdateOverwrite rt recordKey signedUpdateBytes signature true).Effect seqState
      fun u seqState' => ∃ kind owner,
        extractLegacyKeys rt u.recordFields u.payload = .ok (kind, recordKey, owner) ∧
        seqState' = Function.update seqState recordKey
          (some { ownerPublicKey := owner, seq := u.seq }) := by
  unfold validateSignedUpdateOverwrite
  apply Checked.effect_lift_bind
  intro u hu
  cases hidentity : extractIdentityAndKeys rt u.recordFields with
  | ok keys =>
    refine (validateUpdate_effect _ recordKey signedUpdateBytes signature seqState).mono ?_
    rintro u' seqState' ⟨owner, hu', hextract, hset⟩
    obtain rfl := Except.ok.inj (hu.symm.trans hu')
    refine ⟨.identity, owner, ?_, hset⟩
    rw [extractLegacyKeys_eq_ok, hextract]
    exact ⟨rfl, rfl, rfl⟩
  | error e =>
    refine (validateUpdate_effect _ recordKey signedUpdateBytes signature seqState).mono ?_
    rintro u' seqState' ⟨owner, hu', hextract, hset⟩
    obtain rfl := Except.ok.inj (hu.symm.trans hu')
    refine ⟨.provider, owner, ?_, hset⟩
    rw [extractLegacyKeys_eq_ok, hidentity]
    exact ⟨rfl, hextract⟩

/-- What is read as a legacy SignedUpdate is a canonical dictionary under the keys 1, 2 and 3. -/
theorem decodeSignedUpdateStrict_map {data : Bytes} {u : SignedUpdate}
    (h : decodeSignedUpdateStrict rt data = .ok u) :
    ∃ map, LoadsDict rt data map ∧ map.keysAre [1, 2, 3] = true ∧
      map.get? 1 = some (.dict u.recordFields) ∧ map.get? 2 = some (.dict u.payload) ∧
      map.get? 3 = some (natValue u.seq) := by
  obtain ⟨hdecode, hnone⟩ := decodeSignedUpdateStrict_eq_ok.1 h
  rw [decodeCanonicalSignedUpdate, loadsDict_iff] at hdecode
  obtain ⟨map, hload, hread⟩ := hdecode
  simp only [validateDecodedSignedUpdate, bind_eq_ok, raiseIf_eq_ok, orRaise_eq_ok, getItem_eq_ok,
    Value.asDict?_eq_some, validateUintKeys_eq_ok, requireUint_eq_ok, exists_const] at hread
  obtain ⟨hkeys, _, h₁, fields, rfl, _, h₂, payload, rfl, -, -, _, h₃, n, rfl, hread⟩ := hread
  split at hread
  · rename_i h₄
    rw [pure_eq_ok] at hread
    subst hread
    refine ⟨map, hload, ?_, h₁, h₂, h₃⟩
    by_contra hnot
    have hfour : map.keysAre [1, 2, 3, 4] = true := by
      rw [Bool.not_eq_true] at hnot
      simpa [hnot] using hkeys
    obtain ⟨v, hv⟩ := Dict.get?_of_keysAre hfour (n := 4) (by decide)
    cases h₄.symm.trans hv
  · simp only [bind_eq_ok, pure_eq_ok] at hread
    obtain ⟨a, -, _, -, rfl⟩ := hread
    cases hnone

/-! ## Calls -/

/-- The arguments of a call of `validate_signed_update_overwrite`. -/
structure OverwriteCall where
  recordKey : Bytes
  signedUpdateBytes : Bytes
  signature : Bytes

namespace OverwriteCall

/-- The call, with state update on. -/
def check (rt : Runtime) (c : OverwriteCall) : Checked SignedUpdate :=
  validateSignedUpdateOverwrite rt c.recordKey c.signedUpdateBytes c.signature true

/-- What the call returns in a state. -/
def result (rt : Runtime) (c : OverwriteCall) (seqState : SeqState) : Py SignedUpdate :=
  (c.check rt).result seqState

/-- The state that the call leaves. -/
def next (rt : Runtime) (c : OverwriteCall) (seqState : SeqState) : SeqState :=
  ((c.check rt).run seqState).2

/-- The bytes are a canonical SignedUpdate under the keys 1, 2 and 3, which reads as `u`; its lookup
key is the record key, and the owner of the entry signed it. -/
structure Accepts (rt : Runtime) (c : OverwriteCall) (u : SignedUpdate) (entry : SeqStateEntry) :
    Prop where
  canonical : ∃ map, LoadsDict rt c.signedUpdateBytes map ∧ map.keysAre [1, 2, 3] = true ∧
    map.get? 1 = some (.dict u.recordFields) ∧ map.get? 2 = some (.dict u.payload) ∧
    map.get? 3 = some (natValue u.seq)
  lookupKey : ∃ kind, extractLegacyKeys rt u.recordFields u.payload =
    .ok (kind, c.recordKey, entry.ownerPublicKey)
  signed : verifyEd25519Signature rt entry.ownerPublicKey c.signedUpdateBytes c.signature = .ok true
  seq : entry.seq = u.seq

variable {c : OverwriteCall} {seqState : SeqState}

/-- A call that raises changes nothing. -/
theorem next_of_error {e : PyError} (h : c.result rt seqState = .error e) :
    c.next rt seqState = seqState := by
  obtain ⟨e', he⟩ | ⟨u, seqState', hok, -⟩ := validateSignedUpdateOverwrite_effect
    rt c.recordKey c.signedUpdateBytes c.signature seqState
  · rw [next, check, he]
  · rw [result, check, Checked.result, hok] at h
    cases h

/-- An accepted call sets the entry of its record key. -/
theorem next_of_ok {u : SignedUpdate} (h : c.result rt seqState = .ok u) :
    ∃ entry, c.next rt seqState = Function.update seqState c.recordKey (some entry) ∧
      c.Accepts rt u entry ∧
      ∀ previous ∈ seqState c.recordKey, entry.ownerPublicKey = previous.ownerPublicKey ∧
        previous.seq < entry.seq := by
  obtain ⟨e', he⟩ | ⟨u', seqState', hok, kind, owner, hkeys, hset⟩ :=
    validateSignedUpdateOverwrite_effect rt c.recordKey c.signedUpdateBytes c.signature
      seqState
  · rw [result, check, Checked.result, he] at h
    cases h
  · have hsame : u' = u := by
      rw [result, check, Checked.result, hok] at h
      exact Except.ok.inj h
    subst hsame
    obtain ⟨hdecode, kind', owner', hkeys', hvalid, hfollow⟩ :=
      validateSignedUpdateOverwrite_eq_ok.1 h
    have howner := Except.ok.inj (hkeys.symm.trans hkeys')
    simp only [Prod.mk.injEq, true_and] at howner
    obtain ⟨rfl, rfl⟩ := howner
    refine ⟨⟨owner, u'.seq⟩, ?_, ⟨decodeSignedUpdateStrict_map hdecode, ⟨kind, hkeys⟩, hvalid, rfl⟩,
      ?_⟩
    · rw [next, check, hok, hset]
    · intro previous hprevious
      exact ⟨(hfollow previous hprevious).2, (hfollow previous hprevious).1⟩

/-- A call either changes nothing or sets one entry to a newer one of the same owner. -/
theorem next_entry (rt : Runtime) (c : OverwriteCall) (k : Bytes) {entry : SeqStateEntry}
    (h : seqState k = some entry) :
    ∃ entry', c.next rt seqState k = some entry' ∧ entry'.ownerPublicKey = entry.ownerPublicKey ∧
      (if c.recordKey = k ∧ (c.result rt seqState).isOk = true then entry.seq < entry'.seq
        else entry' = entry) := by
  obtain ⟨e, he⟩ | ⟨u, hu⟩ := raises_or_returns (c.result rt seqState)
  · rw [next_of_error he, he]
    exact ⟨entry, h, rfl, by simp [Except.isOk, Except.toBool]⟩
  · obtain ⟨new, hnext, -, hfollow⟩ := next_of_ok hu
    rw [hnext, hu]
    by_cases hkey : c.recordKey = k
    · subst hkey
      obtain ⟨howner, hseq⟩ := hfollow entry h
      exact ⟨new, Function.update_self _ _ _, howner, by simpa [Except.isOk, Except.toBool]⟩
    · refine ⟨entry, ?_, rfl, by simp [hkey]⟩
      rw [Function.update_of_ne (Ne.symm hkey)]
      exact h

end OverwriteCall

/-! ## Runs -/

/-- The state after a run of calls. -/
def afterCalls (rt : Runtime) (calls : List OverwriteCall) (seqState : SeqState) : SeqState :=
  calls.foldl (fun seqState c => c.next rt seqState) seqState

/-- The calls of a run that are on a key and are accepted. -/
def acceptedOn (rt : Runtime) (k : Bytes) : List OverwriteCall → SeqState → ℕ
  | [], _ => 0
  | c :: calls, seqState =>
    (if c.recordKey = k ∧ (c.result rt seqState).isOk = true then 1 else 0) +
      acceptedOn rt k calls (c.next rt seqState)

/-- An entry stays, with its owner, and each accepted call on its key raises its sequence number. -/
theorem afterCalls_entry (k : Bytes) (calls : List OverwriteCall) {seqState : SeqState}
    {entry : SeqStateEntry} (h : seqState k = some entry) :
    ∃ entry', afterCalls rt calls seqState k = some entry' ∧
      entry'.ownerPublicKey = entry.ownerPublicKey ∧
      entry.seq + acceptedOn rt k calls seqState ≤ entry'.seq := by
  induction calls generalizing seqState entry with
  | nil => exact ⟨entry, h, rfl, Nat.le_refl _⟩
  | cons c calls ih =>
    obtain ⟨next, hnext, howner, hseq⟩ := OverwriteCall.next_entry rt c k h
    obtain ⟨last, hlast, hlastOwner, hlastSeq⟩ := ih hnext
    refine ⟨last, hlast, hlastOwner.trans howner, ?_⟩
    rw [acceptedOn]
    split at hseq
    · rename_i haccepted
      rw [if_pos haccepted]
      omega
    · rename_i hnot
      rw [if_neg hnot, ← hseq]
      omega

/-- **The legacy overwrite rule.** In every state that a run of calls reaches: a call that raises
changes nothing; an accepted call changes the entry of its record key only, to that of the owner who
signed the accepted bytes; and an entry keeps its owner in all later states, while its sequence
number rises at least by one with every accepted call on its key. -/
theorem overwriteRuns_rule (calls : List OverwriteCall) (initial : SeqState) (c : OverwriteCall)
    (later : List OverwriteCall) :
    (∀ e, c.result rt (afterCalls rt calls initial) = .error e →
      c.next rt (afterCalls rt calls initial) = afterCalls rt calls initial) ∧
    (∀ u, c.result rt (afterCalls rt calls initial) = .ok u →
      (∀ k, k ≠ c.recordKey →
        c.next rt (afterCalls rt calls initial) k = afterCalls rt calls initial k) ∧
      ∃ entry, c.next rt (afterCalls rt calls initial) c.recordKey = some entry ∧
        c.Accepts rt u entry) ∧
    ∀ k entry, afterCalls rt calls initial k = some entry →
      ∃ entry', afterCalls rt (calls ++ later) initial k = some entry' ∧
        entry'.ownerPublicKey = entry.ownerPublicKey ∧
        entry.seq + acceptedOn rt k later (afterCalls rt calls initial) ≤ entry'.seq := by
  refine ⟨fun e he => OverwriteCall.next_of_error he, fun u hu => ?_, fun k entry hentry => ?_⟩
  · obtain ⟨entry, hnext, haccepts, -⟩ := OverwriteCall.next_of_ok hu
    rw [hnext]
    constructor
    · intro k hk
      exact Function.update_of_ne hk _ _
    · exact ⟨entry, Function.update_self _ _ _, haccepts⟩
  · rw [afterCalls, List.foldl_append]
    exact afterCalls_entry k later hentry

namespace Sample

/-- The call for a legacy envelope of the sample Identity. -/
def overwriteCall (e : Bytes) : OverwriteCall :=
  let signed := (decodeSignedEnvelope runtime e).toOption.getD ([], [])
  ⟨identityKey, signed.1, signed.2⟩

end Sample

/-- The second legacy Identity of `alice` follows the first. -/
theorem laterIdentity_raises_entry : ∃ entry entry' : SeqStateEntry,
    afterCalls Sample.runtime [Sample.overwriteCall Sample.legacyIdentity] (fun _ => none)
      Sample.identityKey = some entry ∧
    afterCalls Sample.runtime [Sample.overwriteCall Sample.legacyIdentity,
      Sample.overwriteCall Sample.laterIdentity] (fun _ => none) Sample.identityKey = some entry' ∧
    entry'.ownerPublicKey = entry.ownerPublicKey ∧ entry.seq + 1 ≤ entry'.seq := by
  have hrule := @overwriteRuns_rule Sample.runtime
    [Sample.overwriteCall Sample.legacyIdentity] (fun _ => none)
    (Sample.overwriteCall Sample.laterIdentity) [Sample.overwriteCall Sample.laterIdentity]
  obtain ⟨hfirst, haccepted⟩ :
      (afterCalls Sample.runtime [Sample.overwriteCall Sample.legacyIdentity] (fun _ => none)
        Sample.identityKey).isSome = true ∧
      acceptedOn Sample.runtime Sample.identityKey [Sample.overwriteCall Sample.laterIdentity]
        (afterCalls Sample.runtime [Sample.overwriteCall Sample.legacyIdentity] fun _ => none) =
          1 := by
    decide +kernel
  obtain ⟨entry, hentry⟩ := Option.isSome_iff_exists.1 hfirst
  obtain ⟨entry', hentry', howner, hseq⟩ := hrule.2.2 _ entry hentry
  rw [haccepted] at hseq
  exact ⟨entry, entry', hentry, hentry', howner, hseq⟩

end DecentRegistry
