import DecentRegistry.Authority.Lineage
import DecentRegistry.Dht.Inbound
import DecentRegistry.Dht.Results
import DecentRegistry.Sample.Dht

/-!
# One decision on an Identity

A publication without configured peers and a value put by a peer are judged over the same existing
envelope, but with predecessor chains that come about in different ways: the publication goes
without one for legacy records, and where none is stored it takes an envelope without a predecessor
for a chain of its own, or raises. The judgments are the same nevertheless (`publication_agrees`).
-/

namespace DecentRegistry

open Fallible PyValue Coroutine Replay

variable {rt : Runtime} {recordKey e E : Bytes}

/-! ## The predecessor an envelope names -/

theorem identityPredecessorStateHash_of_update {b : Bytes} {u : SignedUpdate}
    (hb : envelopeSignedUpdateBytes rt E = .ok b) (hu : decodeCanonicalSignedUpdate rt b = .ok u)
    (h : ∀ a ∈ u.authorization, a.operation = .genesis) :
    identityPredecessorStateHash rt E = .ok none := by
  simp only [identityPredecessorStateHash, hb, hu, ok_bind]
  cases ha : u.authorization with
  | none => rfl
  | some a => simp only [h a ha, if_true]; rfl

theorem identityPredecessorStateHash_genesis {p : Candidate} (h : p.Reads rt E)
    (hop : p.authorization.operation = .genesis) :
    identityPredecessorStateHash rt E = .ok none := by
  have hbytes := envelopeSignedUpdateBytes_of_multisignature h.envelope
  rw [h.signedUpdateBytes] at hbytes
  refine identityPredecessorStateHash_of_update hbytes
    (decodeMultisignatureSignedUpdate_eq_ok.1 h.update) ?_
  rintro a ⟨⟩
  exact hop

theorem identityPredecessorStateHash_legacy {legacy : LegacyState}
    (h : legacy.Reads rt recordKey E) :
    identityPredecessorStateHash rt E = .ok none := by
  obtain ⟨_, hsigned, -⟩ := h.signed
  exact identityPredecessorStateHash_of_update
    (envelopeSignedUpdateBytes_of_legacy hsigned) h.update
    (by simp)

/-! ## A chain of one envelope -/

/-- An envelope that replays by itself to a state is a genesis. -/
theorem genesis_of_singleton {s : MultisignatureState}
    (h : validateMultisignatureHistory rt recordKey [E] = .ok s) :
    ∃ p, p.Reads rt E ∧ IsGenesis rt recordKey p ∧ p.authorization.recordKind = .identity ∧
      candidateState rt recordKey p (some [E]) = .ok s := by
  obtain ⟨first, rest, r, heq, hanchor, hrest⟩ :=
    replays_iff.1 (validateMultisignatureHistory_eq_ok.1 h).1
  obtain ⟨rfl, rfl⟩ := List.cons.inj heq
  obtain rfl := foldlM_nil_eq_ok.1 hrest
  cases hanchor with
  | genesis reads genesis kind state => exact ⟨_, reads, genesis, kind, state⟩

/-- A genesis is the same current state by itself as with its one-envelope history, for every
candidate that steps from it: a rotation does not. -/
theorem isCurrent_singleton {p : Candidate} {current : MultisignatureState}
    {history : Option (List Bytes)} (hkind : p.authorization.recordKind = .identity)
    (hstep : IsStep rt recordKey e p (some current) none history) :
    IsCurrent rt recordKey E p (some [E]) current ↔ IsCurrent rt recordKey E p none current := by
  constructor
  · rintro ⟨-, h⟩
    obtain ⟨q, hq, hgenesis, -, hs⟩ := genesis_of_singleton h
    have hhistory := (validateMultisignatureHistory_eq_ok.1 h).2
    refine ⟨validateMultisignatureEnvelope_eq_ok.2 ⟨q, _, hq, .genesis hgenesis, hs⟩, ?_, ?_⟩
    · intro hop
      cases hstep with
      | ordinaryUpdate h => simp [h.operation] at hop
      | replaceSigners h => simp [h.operation] at hop
      | rotate h =>
        obtain rfl := Option.some.inj (h.complete.symm.trans hhistory)
        have := h.legacyAnchor E rfl
        rw [hq.envelope] at this
        cases this
    · simp [hhistory]
  · rintro ⟨h, hop, hhistory⟩
    have hcurrentKind : current.recordKind = .identity := hstep.current_recordKind.trans hkind
    exact ⟨rfl, validateMultisignatureHistory_singleton h hcurrentKind
      fun hnone => hhistory ⟨hkind, hnone⟩⟩

/-- An accepted candidate steps from the current state that the chain recovers. -/
theorem validateIdentityOverwrite_steps {chain : Option (List Bytes)} {r : IdentityOverwriteResult}
    (he : isMultisignatureEnvelope rt e = true) (hE : isMultisignatureEnvelope rt E = true)
    (h : validateIdentityOverwrite rt recordKey e (some E) chain = .ok r) :
    ∃ p current history, p.Reads rt e ∧ p.authorization.recordKind = .identity ∧
      IsStep rt recordKey e p (some current) none history ∧
      IsCurrent rt recordKey E p chain current := by
  simp only [validateIdentityOverwrite, he, if_true, bind_eq_ok] at h
  obtain ⟨s, hs, u, hu, -, -, -, -, v, hv, -⟩ := h
  obtain ⟨p, history, current, anchor, hp, hfrom, hstep, -, hstate⟩ :=
    validateMultisignatureTransition_spec hs
  obtain rfl : p.update = u := Except.ok.inj ((hp.state hstate).update.symm.trans hu)
  simp only [StepsFrom, hE, if_true] at hfrom
  obtain ⟨current, rfl, rfl, hfrom⟩ := hfrom
  exact ⟨p, current, history, hp, recordKind_of_identityOverwrite hp (getItem_eq_ok.1 hv), hstep,
    hfrom⟩

/-- With another chain that recovers the same current state, the judgment is the same. -/
theorem validateIdentityOverwrite_of_isCurrent {chain chain' : Option (List Bytes)}
    {r : IdentityOverwriteResult} (he : isMultisignatureEnvelope rt e = true)
    (hE : isMultisignatureEnvelope rt E = true)
    (hcurrent : ∀ p current history, p.authorization.recordKind = .identity →
      IsStep rt recordKey e p (some current) none history →
      IsCurrent rt recordKey E p chain current → IsCurrent rt recordKey E p chain' current)
    (h : validateIdentityOverwrite rt recordKey e (some E) chain = .ok r) :
    validateIdentityOverwrite rt recordKey e (some E) chain' = .ok r := by
  obtain ⟨p, current, history, hp, hkind, hstep, hfrom⟩ := validateIdentityOverwrite_steps he hE h
  have hfrom' := hcurrent p current history hkind hstep hfrom
  simp only [validateIdentityOverwrite, he, if_true, bind_eq_ok, validateMultisignatureTransition,
    hE] at h ⊢
  obtain ⟨s, ⟨env, henv, u, hu, b, hb, checked, hchecked, x, ⟨current', hcurrent', hx⟩, hs⟩, hr⟩ :=
    h
  obtain rfl : p.envelope = env := Except.ok.inj (hp.envelope.symm.trans henv)
  obtain rfl : p.update = u := by
    rw [hp.signedUpdateBytes] at hu
    exact Except.ok.inj (hp.update.symm.trans hu)
  obtain rfl := Except.ok.inj (hcurrent'.symm.trans (currentMultisignatureState_eq_ok.2 hfrom))
  exact ⟨s, ⟨p.envelope, henv, p.update, hu, b, hb, checked, hchecked, x,
    ⟨current', currentMultisignatureState_eq_ok.2 hfrom', hx⟩, hs⟩, hr⟩

/-! ## The chain of a publication -/

/-- Without configured peers the walk from an envelope ends at it. -/
def walkAlone (rt : Runtime) (envelope : Bytes) : Option (List Bytes) :=
  match readPredecessorLink rt envelope with
  | .ok (_, none) =>
    if maxRemoteIdentityHistoryBytes < envelope.length then none else some [envelope]
  | _ => none

/-- The predecessor chain of a publication without configured peers. -/
def publicationChain (rt : Runtime) (history : Option (List Bytes)) (existing : Option Bytes) :
    Py (Option (List Bytes)) :=
  match historyEndingAt history existing, existing with
  | some chain, _ => return some chain
  | none, none => return none
  | none, some existing =>
    match walkAlone rt existing with
    | some chain => return some chain
    | none =>
      match identityPredecessorStateHash rt existing with
      | .ok (some _) =>
        throw (historyUnavailable "authenticated Identity predecessor history is unavailable")
      | _ => return none

theorem walkAlone_eq_some {chain : List Bytes} (h : walkAlone rt E = some chain) : chain = [E] := by
  unfold walkAlone at h
  split at h
  · split at h
    · cases h
    · exact (Option.some.inj h).symm
  · cases h

/-- An envelope that names a predecessor is nothing that a candidate can follow without its
chain. -/
theorem identityPredecessorStateHash_of_overwrite {r : IdentityOverwriteResult}
    (he : isMultisignatureEnvelope rt e = true)
    (h : validateIdentityOverwrite rt recordKey e (some E) none = .ok r) :
    identityPredecessorStateHash rt E = .ok none := by
  cases hE : isMultisignatureEnvelope rt E with
  | true =>
    obtain ⟨p, current, history, hp, hkind, hstep, hfrom⟩ := validateIdentityOverwrite_steps he hE h
    obtain ⟨-, hsingle⟩ := (isCurrent_singleton hkind hstep).2 hfrom
    obtain ⟨q, hq, hgenesis, -⟩ := genesis_of_singleton hsingle
    exact identityPredecessorStateHash_genesis hq hgenesis.operation
  | false =>
    obtain ⟨l, s, run, hexisting⟩ := validateIdentityOverwrite_run he h
    obtain ⟨-, hlegacy⟩ := hexisting E rfl
    rw [if_neg (by simp [hE])] at hlegacy
    obtain ⟨legacy, hreads, -⟩ := hlegacy
    exact identityPredecessorStateHash_legacy hreads

/-- An envelope by itself is as good as no chain. -/
theorem validateIdentityOverwrite_singleton {r : IdentityOverwriteResult}
    (he : isMultisignatureEnvelope rt e = true) :
    validateIdentityOverwrite rt recordKey e (some E) (some [E]) = .ok r ↔
      validateIdentityOverwrite rt recordKey e (some E) none = .ok r := by
  cases hE : isMultisignatureEnvelope rt E with
  | true =>
    constructor
    · exact validateIdentityOverwrite_of_isCurrent he hE fun p current history hkind hstep =>
        (isCurrent_singleton hkind hstep).1
    · exact validateIdentityOverwrite_of_isCurrent he hE fun p current history hkind hstep =>
        (isCurrent_singleton hkind hstep).2
  | false => simp [validateIdentityOverwrite, validateMultisignatureTransition, hE]

/-- **Of a multisignature candidate** the publication makes the judgment it would make with what is
stored. -/
theorem publicationChain_agrees {existing : Option Bytes} {history : Option (List Bytes)}
    {r : IdentityOverwriteResult} (he : isMultisignatureEnvelope rt e = true) :
    (∃ chain, publicationChain rt history existing = .ok chain ∧
        validateIdentityOverwrite rt recordKey e existing chain = .ok r) ↔
      validateIdentityOverwrite rt recordKey e existing (historyEndingAt history existing) =
        .ok r := by
  unfold publicationChain
  split
  · rename_i hchain
    simp [hchain]
  · rename_i hchain
    simp [hchain]
  rename_i E hchain
  rw [hchain]
  split
  · rename_i chain hwalk
    obtain rfl := walkAlone_eq_some hwalk
    simp [validateIdentityOverwrite_singleton he]
  split
  · rename_i predecessor hpredecessor
    refine iff_of_false (by simp) fun h => ?_
    have := identityPredecessorStateHash_of_overwrite he h
    rw [hpredecessor] at this
    cases this
  · simp

/-! ## The two decisions -/

/-- The judgment of `put_signed_identity_record` without configured peers, given the DHT value, the
durable head and the stored history. -/
def publicationDecision (rt : Runtime) (recordKey e : Bytes) (value head : Option Bytes)
    (history : Option (List Bytes)) : Py IdentityOverwriteResult := do
  let existing ← selectIdentityForPut rt none value head
  if !(isMultisignatureEnvelope rt e || isMultisignatureValue rt value ||
      isMultisignatureValue rt head)
  then validateIdentityOverwrite rt recordKey e existing none
  else validateIdentityOverwrite rt recordKey e existing (← publicationChain rt history existing)

/-- Where the value is the head, or missing beside a head, the existing envelope is a multisignature
one if either is. -/
theorem isMultisignatureValue_select {value head existing : Option Bytes}
    (hserved : ∀ L ∈ head, ∀ x ∈ value, x = L)
    (hselect : selectNewestEnvelope rt value head = .ok existing)
    (h : isMultisignatureValue rt value = true ∨ isMultisignatureValue rt head = true) :
    isMultisignatureValue rt existing = true := by
  cases head with
  | none =>
    have hvalue : isMultisignatureValue rt value = true :=
      h.resolve_right (by simp [isMultisignatureValue])
    cases value with
    | none => simp [isMultisignatureValue] at hvalue
    | some x =>
      obtain rfl := Except.ok.inj hselect
      exact hvalue
  | some L =>
    cases value with
    | none =>
      obtain rfl := Except.ok.inj hselect
      exact h.resolve_left (by simp [isMultisignatureValue])
    | some x =>
      obtain rfl := hserved L rfl x rfl
      simp only [selectNewestEnvelope, if_true, pure_eq_ok] at hselect
      subst hselect
      exact h.elim id id

/-- A legacy candidate is judged without a chain. -/
theorem validateIdentityOverwrite_legacy_chain {existing : Option Bytes}
    {chain chain' : Option (List Bytes)} (he : isMultisignatureEnvelope rt e = false) :
    validateIdentityOverwrite rt recordKey e existing chain =
      validateIdentityOverwrite rt recordKey e existing chain' := by
  simp [validateIdentityOverwrite, he]

/-- A legacy candidate is refused over a multisignature envelope. -/
theorem validateIdentityOverwrite_legacy_refused {existing : Option Bytes}
    {chain : Option (List Bytes)} {r : IdentityOverwriteResult}
    (he : isMultisignatureEnvelope rt e = false) (hE : isMultisignatureValue rt existing = true) :
    validateIdentityOverwrite rt recordKey e existing chain ≠ .ok r := by
  cases existing with
  | none => simp [isMultisignatureValue] at hE
  | some E =>
    intro h
    have := not_multisignature_of_legacyOverwrite he h E rfl
    simp [isMultisignatureValue, this] at hE

/-- **The two decisions agree** on a candidate that is not the existing envelope. -/
theorem publicationDecision_agrees {value head : Option Bytes} {history : Option (List Bytes)}
    {r : IdentityOverwriteResult} (hserved : ∀ L ∈ head, ∀ x ∈ value, x = L)
    (hnew : selectNewestEnvelope rt value head ≠ .ok (some e)) :
    publicationDecision rt recordKey e value head history = .ok r ↔
      inboundDecision rt recordKey e value head history = .ok (some r) := by
  simp only [publicationDecision, selectIdentityForPut, inboundDecision, bind_eq_ok, rewrap_eq_ok]
  refine exists_congr fun existing => and_congr_right fun hselect => ?_
  have hother : existing ≠ some e := by
    rintro rfl
    exact hnew hselect
  rw [if_neg hother]
  simp only [bind_eq_ok, pure_eq_ok, Option.some.injEq, exists_eq_right]
  cases he : isMultisignatureEnvelope rt e with
  | true => simpa using publicationChain_agrees he
  | false =>
    split
    · rw [validateIdentityOverwrite_legacy_chain he]
    · rename_i hused
      have hexisting := isMultisignatureValue_select hserved hselect <| by
        simpa [he, or_iff_not_imp_left] using hused
      have hrefused (chain : Option (List Bytes)) :
          validateIdentityOverwrite rt recordKey e existing chain ≠ .ok r :=
        validateIdentityOverwrite_legacy_refused he hexisting
      simp [bind_eq_ok, hrefused]

/-! ## Runs of a publication -/

variable {d : DhtInstance} {env : Environment} {s t : DhtState} {hash : Text} {value : Option Bytes}

/-- Without configured peers the walk asks nobody. -/
theorem run_readRemoteIdentityPredecessorChain (hpeers : s.surroundings.bootstrapPeers = []) :
    run env.answer (readRemoteIdentityPredecessorChain rt d hash E) s =
      (.ok (walkAlone rt E), s) := by
  have hread (stateHash : Bytes) :
      run env.answer (readRemoteIdentityEnvelopeByHash rt d hash stateHash) s = (.ok none, s) := by
    simp only [readRemoteIdentityEnvelopeByHash, run_bind, Coro.reads, run_transact, hpeers]
    rfl
  have hwalk : run env.answer (walkPredecessors rt d hash maxRemoteIdentityHistoryEntries [] [] 0 E)
      s = (.ok (walkAlone rt E), s) := by
    change run env.answer (walkPredecessors rt d hash (255 + 1) [] [] 0 E) s = _
    unfold walkPredecessors walkAlone
    cases readPredecessorLink rt E with
    | error err => rfl
    | ok link =>
      obtain ⟨stateHash, predecessorHash⟩ := link
      simp only [List.not_mem_nil, if_false, Nat.zero_add]
      split
      · cases predecessorHash <;> rfl
      · cases predecessorHash with
        | none => rfl
        | some predecessorHash =>
          change run env.answer (if 255 = 0 then _ else _) s = _
          rw [if_neg (by decide), run_bind, hread]
          rfl
  simp only [readRemoteIdentityPredecessorChain, run_orHandle, hwalk]

theorem run_predecessorChainForPut (hpeers : s.surroundings.bootstrapPeers = [])
    {existing : Option Bytes} :
    run env.answer (predecessorChainForPut rt d hash recordKey existing) s =
      (publicationChain rt (historyIn rt d s.durable .identity recordKey) existing, s) := by
  simp only [predecessorChainForPut, run_bind, run_durableHistory, publicationChain]
  cases historyEndingAt (historyIn rt d s.durable .identity recordKey) existing with
  | some chain => rfl
  | none =>
    cases existing with
    | none => rfl
    | some E =>
      simp only [run_bind, run_readRemoteIdentityPredecessorChain hpeers]
      cases walkAlone rt E with
      | some chain => rfl
      | none =>
        rcases identityPredecessorStateHash rt E with err | (_ | predecessorHash) <;> rfl

/-- What `_put_signed_identity_record` has established when it starts to publish: the result of the
validation, the write context, and whether it goes on without the accepted state. -/
structure ValidatedPublication where
  result : IdentityOverwriteResult
  context : IdentityWriteContext
  isLegacy : Bool

/-- `_put_signed_identity_record` without a condition, up to its validation. -/
def validateForPublication (rt : Runtime) (d : DhtInstance) (objectKeyHex : Text)
    (recordKey envelopeCbor : Bytes) : Dht ValidatedPublication := do
  let rawDht ← readIdentityForPut d objectKeyHex none
  let rawLocal ← durableGet d .identity recordKey
  let rawExisting ← selectIdentityForPut rt none rawDht rawLocal
  requireServableHistory rt d envelopeCbor
    "durable Identity history is required for post-genesis writes on a Registry server"
  if !(isMultisignatureEnvelope rt envelopeCbor || isMultisignatureValue rt rawDht ||
      isMultisignatureValue rt rawLocal)
  then
    let result ← validateIdentityOverwrite rt recordKey envelopeCbor rawExisting none
    return ⟨result, ⟨recordKey, envelopeCbor, rawExisting, none⟩, true⟩
  else
    let chain ← predecessorChainForPut rt d objectKeyHex recordKey rawExisting
    let result ← validateIdentityOverwrite rt recordKey envelopeCbor rawExisting chain
    return ⟨result, ⟨recordKey, envelopeCbor, rawExisting, chain⟩, false⟩

/-- The call of `_durable_install` in `_put_signed_identity_record`. -/
def ValidatedPublication.install (rt : Runtime) (d : DhtInstance) (v : ValidatedPublication) :
    Dht Unit :=
  durableInstall rt d .identity v.context.recordKey v.context.envelopeCbor v.result.attributes none

/-- The rest of `_put_signed_identity_record` without a condition. -/
def publishValidated (rt : Runtime) (d : DhtInstance) (objectKeyHex : Text)
    (v : ValidatedPublication) : Dht Unit := do
  let envelopeCbor := v.context.envelopeCbor
  let publish := publishDhtValue (kadKey objectKeyHex .identity) envelopeCbor (some v.context)
  if v.isLegacy then
    publish
    v.install rt d
  else
    if isMultisignatureEnvelope rt envelopeCbor = true ∧ d.durableStore.isSome then v.install rt d
    publish

/-- **A publication is its validation and the rest.** -/
theorem putSignedIdentityRecord_eq (rt : Runtime) (d : DhtInstance) (objectKeyHex : Text)
    (envelopeCbor : Bytes) :
    putSignedIdentityRecord rt d objectKeyHex envelopeCbor = (do
      let recordKey ← fromHex objectKeyHex
      withAcceptedLock do
        publishValidated rt d objectKeyHex
          (← validateForPublication rt d objectKeyHex recordKey envelopeCbor)) := by
  unfold putSignedIdentityRecord putIdentityRecord validateForPublication
  refine congrArg _ (funext fun recordKey => congrArg withAcceptedLock ?_)
  simp only [bind_assoc]
  refine congrArg _ (funext fun rawDht => congrArg _ (funext fun rawLocal => ?_))
  refine congrArg _ (funext fun rawExisting => ?_)
  -- without a condition no state is expected
  change (requireServableHistory rt d envelopeCbor _ >>= fun _ => _) = _
  refine congrArg _ (funext fun _ => ?_)
  split
  · simp only [putLegacyIdentity, publishValidated, bind_assoc, pure_bind, if_true]
    rfl
  · simp only [putAcceptedIdentity, publishValidated, bind_assoc, pure_bind]
    rfl

/-- No peers are configured, and none will be. -/
structure NoBootstrapPeers (env : Environment) (s : DhtState) : Prop where
  none : s.surroundings.bootstrapPeers = []
  kept : ∀ q s, s.surroundings.bootstrapPeers = [] →
    (env.answer q s).2.surroundings.bootstrapPeers = []

/-- A read of the DHT configures no peers. -/
theorem NoBootstrapPeers.readDhtValue (h : NoBootstrapPeers env s) (kadKey : Text) (quorum : ℕ) :
    (run env.answer (readDhtValue kadKey quorum) s).2.surroundings.bootstrapPeers = [] := by
  have hread : (run env.answer (DecentRegistry.readDhtValue kadKey quorum) s).2 =
      (env.answer (.getValue kadKey quorum) s).2 := by
    change (run env.answer ((Coro.ofExcept (env.answer (.getValue kadKey quorum) s).1).orHandle _)
      (env.answer (.getValue kadKey quorum) s).2).2 = _
    cases (env.answer (.getValue kadKey quorum) s).1 with
    | ok x => rfl
    | error err =>
      change (run env.answer (if err.cls.isException then _ else _) _).2 = _
      cases err.cls.isException <;> rfl
  rw [hread]
  exact h.kept _ s h.none

/-- **The publication judges by its decision.** -/
theorem run_validateForPublication (hd : d.durableStore.isSome = true)
    (hpeers : NoBootstrapPeers env s)
    (hvalue : (run env.answer (readDhtValue (kadKey hash .identity) 0) s).1 = .ok value) :
    (·.result) <$> (run env.answer (validateForPublication rt d hash recordKey e) s).1 =
      publicationDecision rt recordKey e value (s.durable.get .identity recordKey)
        (historyIn rt d s.durable .identity recordKey) := by
  obtain ⟨t, hread⟩ : ∃ t, run env.answer (readDhtValue (kadKey hash .identity) 0) s =
      (.ok value, t) := ⟨_, Prod.ext hvalue rfl⟩
  have hdurable : t.durable = s.durable := (readDhtValue_quiet _ _).durable_eq hread
  have hnone : t.surroundings.bootstrapPeers = [] := by
    have := hpeers.readDhtValue (kadKey hash .identity) 0
    rwa [hread] at this
  have hfound : run env.answer (readIdentityForPut d hash none) s = (.ok value, t) := by
    simp only [readIdentityForPut, run_bind, hread]
    cases value with
    | some x => rfl
    | none =>
      simp only [Coro.reads, run_bind, run_transact, hnone]
      rfl
  simp only [validateForPublication, run_bind, hfound, run_durableGet, headIn_eq hd, run_lift,
    hdurable, publicationDecision]
  cases selectIdentityForPut rt none value (s.durable.get .identity recordKey) with
  | error err => rfl
  | ok existing =>
    simp only [run_requireServableHistory hd, ok_bind]
    split
    · simp only [run_bind, run_lift]
      cases validateIdentityOverwrite rt recordKey e existing none <;> rfl
    · simp only [run_bind, run_predecessorChainForPut hnone, run_lift, hdurable]
      cases publicationChain rt (historyIn rt d s.durable .identity recordKey) existing with
      | error err => rfl
      | ok chain =>
        simp only [ok_bind]
        cases validateIdentityOverwrite rt recordKey e existing chain <;> rfl

/-- A publication goes on with the candidate it has validated. -/
theorem context_of_validateForPublication {v : ValidatedPublication}
    (h : (run env.answer (validateForPublication rt d hash recordKey e) s).1 = .ok v) :
    v.context.recordKey = recordKey ∧ v.context.envelopeCbor = e := by
  obtain ⟨_, _, -, h⟩ := run_bind_eq_ok.1 (Prod.ext h rfl)
  obtain ⟨_, _, -, h⟩ := run_bind_eq_ok.1 h
  obtain ⟨_, _, -, h⟩ := run_bind_eq_ok.1 h
  obtain ⟨_, _, -, h⟩ := run_bind_eq_ok.1 h
  split at h
  · obtain ⟨_, _, -, h⟩ := run_bind_eq_ok.1 h
    obtain ⟨rfl, -⟩ := run_pure_eq_ok.1 h
    exact ⟨rfl, rfl⟩
  · obtain ⟨_, _, -, h⟩ := run_bind_eq_ok.1 h
    obtain ⟨_, _, -, h⟩ := run_bind_eq_ok.1 h
    obtain ⟨rfl, -⟩ := run_pure_eq_ok.1 h
    exact ⟨rfl, rfl⟩

theorem validateIdentityOverwrite_of_publication {value head : Option Bytes}
    {history : Option (List Bytes)} {r : IdentityOverwriteResult}
    (h : publicationDecision rt recordKey e value head history = .ok r) :
    ∃ existing chain, validateIdentityOverwrite rt recordKey e existing chain = .ok r := by
  obtain ⟨existing, -, h⟩ := bind_eq_ok.1 h
  split at h
  · exact ⟨existing, none, h⟩
  · obtain ⟨chain, -, h⟩ := bind_eq_ok.1 h
    exact ⟨existing, chain, h⟩

/-- What is accepted is the record of a key of 32 bytes. -/
theorem length_of_identityOverwrite {existing : Option Bytes} {chain : Option (List Bytes)}
    {r : IdentityOverwriteResult}
    (h : validateIdentityOverwrite rt recordKey e existing chain = .ok r) :
    recordKey.length = 32 := by
  cases he : isMultisignatureEnvelope rt e with
  | true =>
    simp only [validateIdentityOverwrite, he, if_true, bind_eq_ok] at h
    obtain ⟨s, hs, u, hu, -, -, -, -, v, hv, -⟩ := h
    obtain ⟨p, history, current, anchor, hp, -, hstep, -, hstate⟩ :=
      validateMultisignatureTransition_spec hs
    obtain rfl : p.update = u := Except.ok.inj ((hp.state hstate).update.symm.trans hu)
    have hkind := recordKind_of_identityOverwrite hp (getItem_eq_ok.1 hv)
    have hkeys := hp.recordKey
    rw [hkind] at hkeys
    obtain ⟨owner, hkeys⟩ := hkeys
    obtain ⟨name, -, -, hname⟩ := extractIdentityAndKeys_eq_ok.1 hkeys
    rw [← hstep.lookupKey, ← hname]
    exact rt.sha256_length name
  | false =>
    simp only [validateIdentityOverwrite, he, Bool.false_eq_true, if_false, bind_eq_ok,
      validateLegacyIdentity_eq_ok] at h
    obtain ⟨-, -, legacy, name, hreads, hkind, -⟩ := h
    obtain ⟨name, -, -, hname⟩ := hreads.identity hkind
    rw [← hname]
    exact rt.sha256_length name

/-- What is judged on the key of an Identity has a record key of 32 bytes. -/
theorem recordKey_of_validateDhtRecord {x : Option AcceptedResult}
    (h : (run env.answer (validateDhtRecord rt d none (kadKey hash .identity) e) s).1 = .ok x) :
    ∃ recordKey, fromHex hash = .ok recordKey ∧ recordKey.length = 32 := by
  obtain ⟨⟨kind, recordKey⟩, _, hparse, -⟩ := run_bind_eq_ok.1 (Prod.ext h rfl)
  obtain ⟨hparse, -⟩ := run_lift_eq_ok.1 hparse
  obtain ⟨hash', hkad, hkey, hlength⟩ := parseKey_eq_ok.1 hparse
  obtain ⟨-, rfl⟩ := kadKey_injective.1 hkad
  exact ⟨recordKey, hkey, hlength⟩

/-- A value that both paths see is judged on inbound PUT over the head, which it is or which is
absent. -/
theorem run_validateDhtRecord_of_value (hd : d.durableStore.isSome = true)
    (hkey : fromHex hash = .ok recordKey) (hlength : recordKey.length = 32)
    (hmemory :
      (run env.answer (valueStoreGet rt d (utf8 (kadKey hash .identity))) s).1 = .ok value) :
    (run env.answer (validateDhtRecord rt d none (kadKey hash .identity) e) s).1 =
        Option.map .identity <$> inboundDecision rt recordKey e value
          (s.durable.get .identity recordKey) (historyIn rt d s.durable .identity recordKey) ∧
      ∀ L ∈ s.durable.get .identity recordKey, ∀ x ∈ value, x = L := by
  obtain ⟨x, t, hget, hserved⟩ : ∃ x t,
      run env.answer (valueStoreGet rt d (utf8 (kadKey hash .identity))) s = (.ok x, t) ∧
        Served rt d recordKey (utf8 (kadKey hash .identity)) s x t :=
    run_valueStoreGet hd hkey hlength
  obtain rfl : x = value := by
    rw [hget] at hmemory
    exact Except.ok.inj hmemory
  rw [run_validateDhtRecord hd hkey hlength hget hserved.durable]
  refine ⟨rfl, fun L hL y hy => ?_⟩
  rcases hserved.eq_head hL with rfl | rfl
  · cases hy
  · exact (Option.some.inj hy).symm

/-- The two decisions on a value that both paths see come to one result. -/
theorem publicationDecision_iff_accepted {r : IdentityOverwriteResult}
    (hd : d.durableStore.isSome = true)
    (hkey : fromHex hash = .ok recordKey) (hlength : recordKey.length = 32)
    (hmemory :
      (run env.answer (valueStoreGet rt d (utf8 (kadKey hash .identity))) s).1 = .ok value)
    (hnew : selectNewestEnvelope rt value (s.durable.get .identity recordKey) ≠ .ok (some e)) :
    publicationDecision rt recordKey e value (s.durable.get .identity recordKey)
        (historyIn rt d s.durable .identity recordKey) = .ok r ↔
      (run env.answer (validateDhtRecord rt d none (kadKey hash .identity) e) s).1 =
        .ok (some (.identity r)) := by
  obtain ⟨hrun, hserved⟩ := run_validateDhtRecord_of_value hd hkey hlength hmemory
  rw [publicationDecision_agrees hserved hnew, hrun, map_eq_ok]
  simp

/-- What a publication validates is accepted on inbound PUT. -/
theorem accepted_of_published {v : ValidatedPublication} (hd : d.durableStore.isSome = true)
    (hpeers : NoBootstrapPeers env s)
    (hdht : (run env.answer (readDhtValue (kadKey hash .identity) 0) s).1 = .ok value)
    (hmemory :
      (run env.answer (valueStoreGet rt d (utf8 (kadKey hash .identity))) s).1 = .ok value)
    (hkey : fromHex hash = .ok recordKey)
    (hnew : selectNewestEnvelope rt value (s.durable.get .identity recordKey) ≠ .ok (some e))
    (hrun : (run env.answer (validateForPublication rt d hash recordKey e) s).1 = .ok v) :
    (run env.answer (validateDhtRecord rt d none (kadKey hash .identity) e) s).1 =
      .ok (some (.identity v.result)) := by
  have hdecision :
      (·.result) <$> (run env.answer (validateForPublication rt d hash recordKey e) s).1 =
        publicationDecision rt recordKey e value (s.durable.get .identity recordKey)
          (historyIn rt d s.durable .identity recordKey) :=
    run_validateForPublication hd hpeers hdht
  rw [hrun] at hdecision
  obtain ⟨_, _, hjudged⟩ := validateIdentityOverwrite_of_publication hdecision.symm
  exact (publicationDecision_iff_accepted hd hkey (length_of_identityOverwrite hjudged) hmemory
    hnew).1 hdecision.symm

/-- **Publication and inbound PUT agree.** On a value that both see and a candidate that is not the
selected head, `put_signed_identity_record` passes its validation with a result if and only if
`_validate_dht_record` accepts the candidate with that result, and then the two install the same: an
installation takes its sequence number, state hash and history from the envelope and the result. -/
theorem publication_agrees (hd : d.durableStore.isSome = true) (hpeers : NoBootstrapPeers env s)
    (hdht : (run env.answer (readDhtValue (kadKey hash .identity) 0) s).1 = .ok value)
    (hmemory :
      (run env.answer (valueStoreGet rt d (utf8 (kadKey hash .identity))) s).1 = .ok value)
    (hnew : ∀ recordKey, fromHex hash = .ok recordKey →
      selectNewestEnvelope rt value (s.durable.get .identity recordKey) ≠ .ok (some e)) :
    (∀ r, (∃ recordKey v, fromHex hash = .ok recordKey ∧
        (run env.answer (validateForPublication rt d hash recordKey e) s).1 = .ok v ∧
        v.context.recordKey = recordKey ∧ v.context.envelopeCbor = e ∧ v.result = r) ↔
      (run env.answer (validateDhtRecord rt d none (kadKey hash .identity) e) s).1 =
        .ok (some (.identity r))) ∧
    (∀ x, (run env.answer (validateDhtRecord rt d none (kadKey hash .identity) e) s).1 = .ok x →
      ∃ r, x = some (.identity r)) ∧
    ∀ recordKey v r, fromHex hash = .ok recordKey →
      (run env.answer (validateForPublication rt d hash recordKey e) s).1 = .ok v →
      (run env.answer (validateDhtRecord rt d none (kadKey hash .identity) e) s).1 =
        .ok (some (.identity r)) →
      commitDurableAcceptance rt d (some ⟨.identity, recordKey, e, .identity r⟩) = (do
        if (← durableGet d .identity recordKey) = some e then return ()
        v.install rt d) := by
  refine ⟨fun r => ?_, ?_, ?_⟩
  · constructor
    · rintro ⟨recordKey, v, hkey, hrun, -, -, rfl⟩
      exact accepted_of_published hd hpeers hdht hmemory hkey (hnew recordKey hkey) hrun
    · intro h
      obtain ⟨recordKey, hkey, hlength⟩ := recordKey_of_validateDhtRecord h
      have hdecision := (publicationDecision_iff_accepted hd hkey hlength hmemory
        (hnew recordKey hkey)).2 h
      rw [← run_validateForPublication hd hpeers hdht, map_eq_ok] at hdecision
      obtain ⟨v, hrun, hv⟩ := hdecision
      obtain ⟨hkeyv, hev⟩ := context_of_validateForPublication hrun
      exact ⟨recordKey, v, hkey, hrun, hkeyv, hev, hv⟩
  · intro x h
    obtain ⟨recordKey, hkey, hlength⟩ := recordKey_of_validateDhtRecord h
    rw [(run_validateDhtRecord_of_value hd hkey hlength hmemory).1, map_eq_ok] at h
    obtain ⟨y, hy, rfl⟩ := h
    cases y with
    | some r => exact ⟨r, rfl⟩
    | none =>
      obtain ⟨existing, hselect, hy⟩ := bind_eq_ok.1 hy
      split at hy
      · rename_i hsame
        exact (hnew recordKey hkey (hsame ▸ hselect)).elim
      · simp at hy
  · intro recordKey v r hkey hrun h
    obtain rfl : v.result = r := by
      have hresult := accepted_of_published hd hpeers hdht hmemory hkey (hnew recordKey hkey) hrun
      simpa using hresult.symm.trans h
    obtain ⟨rfl, rfl⟩ := context_of_validateForPublication hrun
    exact commitDurableAcceptance_identity hd

/-- Over an upgrade that is stored with its history and that the DHT has, a replacement of the
signers passes as a publication and as a peer's value alike. -/
theorem replacement_publication_agrees : ∃ r,
    (∃ recordKey v, fromHex (toHex Sample.identityKey) = .ok recordKey ∧
      (run (Environment.constantly (some Sample.upgrade)).answer (validateForPublication
        Sample.runtime Sample.node (toHex Sample.identityKey) recordKey Sample.replacement)
        (Sample.stateOver Sample.upgradedStore)).1 = .ok v ∧
      v.context.recordKey = recordKey ∧ v.context.envelopeCbor = Sample.replacement ∧
      v.result = r) ∧
    (run (Environment.constantly (some Sample.upgrade)).answer (validateDhtRecord Sample.runtime
      Sample.node none (kadKey (toHex Sample.identityKey) .identity) Sample.replacement)
      (Sample.stateOver Sample.upgradedStore)).1 = .ok (some (.identity r)) := by
  obtain ⟨hdht, hmemory, hhead, hother, hok⟩ :
      (run (Environment.constantly (some Sample.upgrade)).answer (readDhtValue
        (kadKey (toHex Sample.identityKey) .identity) 0)
        (Sample.stateOver Sample.upgradedStore)).1 = .ok (some Sample.upgrade) ∧
      (run (Environment.constantly (some Sample.upgrade)).answer (valueStoreGet Sample.runtime
        Sample.node (utf8 (kadKey (toHex Sample.identityKey) .identity)))
        (Sample.stateOver Sample.upgradedStore)).1 = .ok (some Sample.upgrade) ∧
      (Sample.stateOver Sample.upgradedStore).durable.get .identity Sample.identityKey =
        some Sample.upgrade ∧
      selectNewestEnvelope Sample.runtime (some Sample.upgrade) (some Sample.upgrade) ≠
        .ok (some Sample.replacement) ∧
      (run (Environment.constantly (some Sample.upgrade)).answer (validateDhtRecord Sample.runtime
        Sample.node none (kadKey (toHex Sample.identityKey) .identity) Sample.replacement)
        (Sample.stateOver Sample.upgradedStore)).1.isOk = true := by
    decide +kernel
  have hpeers : NoBootstrapPeers (Environment.constantly (some Sample.upgrade))
      (Sample.stateOver Sample.upgradedStore) :=
    ⟨rfl, fun q s h => by cases q <;> exact h⟩
  have hnew (recordKey : Bytes) (hkey : fromHex (toHex Sample.identityKey) = .ok recordKey) :
      selectNewestEnvelope Sample.runtime (some Sample.upgrade)
        ((Sample.stateOver Sample.upgradedStore).durable.get .identity recordKey) ≠
          .ok (some Sample.replacement) := by
    obtain rfl := Except.ok.inj ((fromHex_toHex Sample.identityKey).symm.trans hkey)
    rw [hhead]
    exact hother
  obtain ⟨hagree, haccepts, -⟩ := publication_agrees (d := Sample.node) rfl hpeers hdht hmemory hnew
  obtain ⟨x, hx⟩ := isOk_iff.1 hok
  obtain ⟨r, rfl⟩ := haccepts x hx
  exact ⟨r, (hagree r).2 hx, hx⟩

end DecentRegistry
