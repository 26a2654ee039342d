import DecentRegistry.Provider.WithdrawalAuthority
import DecentRegistry.Sample.Recasing

/-!
# The spelling of the object hash

Whether a Provider envelope may follow another depends on the bytes its object hash stands for, not
on the letter case it is spelled in: a candidate that is accepted stays so when it is recased and
signed anew (`Recased.transition`, `Recased.legacyOverwrite`). The exception is the legacy
withdrawal, whose object hash is compared with that of its predecessor as a text
(`recasing_accepted_iff`).
-/

namespace DecentRegistry

open Fallible PyValue Sha256

variable {rt : Runtime} {hash hash' : Text}

/-! ## Lookup keys -/

section

variable {fields payload : Dict}

/-- The lookup key and the owner of a Provider Record in either letter case. -/
theorem extractProviderAndKeys_recase {r : Bytes × Bytes} (hs : SameLetters hash hash')
    (hhash : payload.get? 3 = some (.atom (.text hash)))
    (h : extractProviderAndKeys fields payload = .ok r) :
    extractProviderAndKeys fields (recase payload hash') = .ok r := by
  simp only [extractProviderAndKeys, bind_eq_ok, rewrap_eq_ok, raiseIf_eq_ok, exists_const,
    not_not] at h ⊢
  obtain ⟨owner, howner, p, hp, hlength, key, hkey, hr⟩ := h
  obtain ⟨rfl, hp'⟩ := decodeProviderPayloadDict_recase hs hhash hp
  refine ⟨owner, howner, _, hp', ?_, key, ?_, hr⟩
  · rw [ProviderPayload.objectHash_withHash, ← hs.length_eq, hlength]
  · rw [ProviderPayload.objectHash_withHash, ← hs.fromHex_eq, hkey]

theorem extractLegacyKeys_recase {kind : RecordKind} {key owner : Bytes}
    (hs : SameLetters hash hash') (hhash : payload.get? 3 = some (.atom (.text hash)))
    (h : extractLegacyKeys rt fields payload = .ok (kind, key, owner)) :
    extractLegacyKeys rt fields (recase payload hash') = .ok (kind, key, owner) := by
  rw [extractLegacyKeys_eq_ok] at h ⊢
  cases hidentity : extractIdentityAndKeys rt fields with
  | ok x =>
    rw [hidentity] at h
    exact h
  | error err =>
    rw [hidentity] at h
    exact ⟨h.1, extractProviderAndKeys_recase hs hhash h.2⟩

end

/-! ## Candidates -/

/-- The candidate with another object hash and other proofs. -/
def Candidate.recase (p : Candidate) (envelope : MultisignatureEnvelope) (hash : Text) :
    Candidate :=
  { p with
    signedUpdateBytes := envelope.signedUpdateBytes
    envelope := envelope
    payload := DecentRegistry.recase p.payload hash }

/-- What the candidates of an envelope and of that in the other letter case have in common. -/
structure RecasedCandidate (rt : Runtime) (hash hash' : Text) (e e' : Bytes) (p p' : Candidate) :
    Prop where
  sameLetters : SameLetters hash hash'
  objectHash : p.payload.get? 3 = some (.atom (.text hash))
  reads : p'.Reads rt e'
  recased : p' = p.recase p'.envelope hash'
  proofs : Recased.ResignedProofs rt p.signedUpdateBytes p'.signedUpdateBytes p.envelope.proofs
    p'.envelope.proofs

/-- **A candidate reads in either letter case.** -/
theorem Recased.candidate {e e' : Bytes} {p : Candidate} (h : Recased rt hash hash' e e')
    (hp : p.Reads rt e) : ∃ p', RecasedCandidate rt hash hash' e e' p p' := by
  obtain ⟨envelope', henvelope', hupdate, hproofs⟩ := h.decodeMultisignatureEnvelope hp.envelope
  obtain ⟨hhash, hread'⟩ := hupdate.decodeMultisignature hp.decode
  have hs := hupdate.sameLetters
  refine ⟨p.recase envelope' hash', hs, hhash, ?_, rfl, ?_⟩
  · refine ⟨henvelope', rfl, hread', ?_⟩
    have hkey := hp.recordKey
    simp only [Candidate.recase]
    cases hkind : p.authorization.recordKind with
    | identity => simpa only [hkind] using hkey
    | provider =>
      simp only [hkind] at hkey ⊢
      obtain ⟨owner, howner⟩ := hkey
      exact ⟨owner, extractProviderAndKeys_recase hs hhash howner⟩
  · simpa only [Candidate.recase, hp.signedUpdateBytes] using hproofs

/-- Proofs of the one SignedUpdate are proofs of the other. -/
theorem ThresholdProofs.recased {u u' : Bytes} {proofs proofs' : List Proof}
    {signerSet : List SignerEntry} {threshold : ℕ}
    (h : ThresholdProofs rt u proofs signerSet threshold)
    (hproofs : Recased.ResignedProofs rt u u' proofs proofs') :
    ThresholdProofs rt u' proofs' signerSet threshold := by
  have hids := hproofs.signerIds
  refine ⟨?_, by rw [hids]; exact h.signers_nodup, ?_⟩
  · rw [← hproofs.length_eq]
    exact h.enough
  · intro proof' hmem'
    obtain ⟨proof, hmem, hid, hresigned⟩ := DistinctReading.exists_read hproofs hmem'
    obtain ⟨key, hkey, hvalid⟩ := h.valid proof hmem
    exact ⟨key, by rw [hid]; exact hkey, hresigned.keys key hvalid⟩

namespace RecasedCandidate

variable {e e' recordKey : Bytes} {p p' : Candidate} {s : MultisignatureState}

theorem authorization (h : RecasedCandidate rt hash hash' e e' p p') :
    p'.authorization = p.authorization := by rw [h.recased]; rfl

theorem recordFields (h : RecasedCandidate rt hash hash' e e' p p') :
    p'.recordFields = p.recordFields := by rw [h.recased]; rfl

theorem seq (h : RecasedCandidate rt hash hash' e e' p p') : p'.seq = p.seq := by
  rw [h.recased]; rfl

theorem derivedRecordKey (h : RecasedCandidate rt hash hash' e e' p p') :
    p'.derivedRecordKey = p.derivedRecordKey := by rw [h.recased]; rfl

theorem payload (h : RecasedCandidate rt hash hash' e e' p p') :
    p'.payload = recase p.payload hash' := by rw [h.recased]; rfl

theorem decodePayload (h : RecasedCandidate rt hash hash' e e' p p') {payload : ProviderPayload}
    (hpayload : decodeProviderPayloadDict p.payload = .ok payload) :
    decodeProviderPayloadDict p'.payload = .ok (payload.withHash hash') := by
  rw [h.payload]
  exact (decodeProviderPayloadDict_recase h.sameLetters h.objectHash hpayload).2

/-- A candidate with an object hash is a Provider candidate. -/
theorem recordKind (h : RecasedCandidate rt hash hash' e e' p p') (hp : p.Reads rt e) :
    p.authorization.recordKind = .provider := by
  refine RecordKind.eq_provider_of_ne fun hkind => ?_
  have hbinding := hp.binding
  rw [hkind] at hbinding
  have hhash := h.objectHash
  rw [hbinding.2.1] at hhash
  cases hhash

/-- The payloads before and after, in the other letter case. -/
theorem providerPayloads (h : RecasedCandidate rt hash hash' e e' p p')
    {current candidate : ProviderPayload}
    (hpayloads : DecentRegistry.providerPayloads rt p s = .ok (current, candidate)) :
    DecentRegistry.providerPayloads rt p' s = .ok (current, candidate.withHash hash') := by
  simp only [DecentRegistry.providerPayloads, bind_eq_ok, pure_eq_ok, Prod.mk.injEq] at hpayloads ⊢
  obtain ⟨u, hu, _, hcurrent, _, hcandidate, rfl, rfl⟩ := hpayloads
  exact ⟨u, hu, _, hcurrent, _, h.decodePayload hcandidate, rfl, rfl⟩

theorem commonTransition (h : RecasedCandidate rt hash hash' e e' p p')
    (hcommon : IsCommonTransition rt recordKey p s) : IsCommonTransition rt recordKey p' s where
  lookupKey := h.derivedRecordKey.trans hcommon.lookupKey
  recordKey := hcommon.recordKey
  recordKind := by rw [h.authorization]; exact hcommon.recordKind
  owner := by rw [h.recordFields]; exact hcommon.owner
  seq := by rw [h.seq]; exact hcommon.seq
  predecessor := by rw [h.authorization]; exact hcommon.predecessor
  payloads := fun hkind => by
    obtain ⟨current, candidate, hpayloads, hnot⟩ := hcommon.payloads hkind
    exact ⟨current, _, h.providerPayloads hpayloads, by simpa using hnot⟩

/-- The only proof of an upgrade is made again under its name. -/
theorem oneProof (h : RecasedCandidate rt hash hash' e e' p p') {signerId : Option Text}
    {signature : Bytes} (hone : p.envelope.proofs = [⟨signerId, signature⟩]) :
    ∃ signature', p'.envelope.proofs = [⟨signerId, signature'⟩] ∧
      Resigned rt p.signedUpdateBytes p'.signedUpdateBytes signature signature' := by
  have hproofs := h.proofs
  rw [hone] at hproofs
  obtain ⟨proof', rest, ⟨rfl, hresigned⟩, hrest, heq⟩ := List.forall₂_cons_left_iff.1 hproofs
  obtain rfl := List.forall₂_nil_left_iff.1 hrest
  exact ⟨proof'.signature, heq, hresigned⟩

/-- **A step in the other letter case is a step.** -/
theorem step (h : RecasedCandidate rt hash hash' e e' p p') (hp : p.Reads rt e)
    {current : Option MultisignatureState} {anchor : Option Bytes} {history : Option (List Bytes)}
    (hstep : IsStep rt recordKey e p current anchor history) :
    ∃ history', IsStep rt recordKey e' p' current anchor history' := by
  have hproofs {set : List SignerEntry} {threshold : ℕ}
      (hproofs : ThresholdProofs rt p.signedUpdateBytes p.envelope.proofs set threshold) :
      ThresholdProofs rt p'.signedUpdateBytes p'.envelope.proofs set threshold :=
    hproofs.recased h.proofs
  have hkind := h.recordKind hp
  cases hstep with
  | genesis hg =>
    exact ⟨_, .genesis
      { operation := by rw [h.authorization]; exact hg.operation
        epoch := by rw [h.authorization]; exact hg.epoch
        predecessor := by rw [h.authorization]; exact hg.predecessor
        lookupKey := h.derivedRecordKey.trans hg.lookupKey
        threshold := by rw [h.authorization]; exact hg.threshold
        size := by rw [h.authorization]; exact hg.size
        proofs := by rw [h.authorization]; exact hproofs hg.proofs }⟩
  | ordinaryUpdate hu =>
    exact ⟨_, .ordinaryUpdate
      { h.commonTransition hu.toIsCommonTransition with
        operation := by rw [h.authorization]; exact hu.operation
        active := fun hprovider => by
          obtain ⟨current, candidate, hpayloads, hactive⟩ := hu.active hprovider
          exact ⟨current, _, h.providerPayloads hpayloads, hactive⟩
        epoch := by rw [h.authorization]; exact hu.epoch
        threshold := by rw [h.authorization]; exact hu.threshold
        signerSet := by rw [h.authorization]; exact hu.signerSet
        proofs := hproofs hu.proofs }⟩
  | replaceSigners hr =>
    exact ⟨_, .replaceSigners
      { h.commonTransition hr.toIsCommonTransition with
        operation := by rw [h.authorization]; exact hr.operation
        epoch := by rw [h.authorization]; exact hr.epoch
        threshold := by rw [h.authorization]; exact hr.threshold
        size := by rw [h.authorization]; exact hr.size
        signerSet := by rw [h.authorization]; exact hr.signerSet
        proofs := hproofs hr.proofs }⟩
  | upgrade anchored hu =>
    obtain ⟨signerId, signature, hone, hsigner, hvalid⟩ := hu.proof
    obtain ⟨signature', hone', hkeys⟩ := h.oneProof hone
    exact ⟨_, .upgrade anchored
      { operation := by rw [h.authorization]; exact hu.operation
        lookupKey := h.derivedRecordKey.trans hu.lookupKey
        recordKind := by rw [h.authorization]; exact hu.recordKind
        seq := by rw [h.seq]; exact hu.seq
        epoch := by rw [h.authorization]; exact hu.epoch
        predecessor := by rw [h.authorization]; exact hu.predecessor
        threshold := by rw [h.authorization]; exact hu.threshold
        size := by rw [h.authorization]; exact hu.size
        owner := by rw [h.recordFields]; exact hu.owner
        proof := ⟨signerId, signature', hone', by rw [h.authorization]; exact hsigner,
          hkeys.keys _ hvalid⟩ }⟩
  | rotateLegacy _ hr => cases hr.recordKind.symm.trans hkind
  | rotate hr =>
    obtain ⟨_, -, hrotation⟩ := hr.rotation
    cases hrotation.recordKind.symm.trans hkind

/-- The operations of a Provider Record do not include a rotation. -/
theorem not_rotation {current : Option MultisignatureState} {anchor : Option Bytes}
    {history : Option (List Bytes)} (h : RecasedCandidate rt hash hash' e e' p p')
    (hp : p.Reads rt e) (hstep : IsStep rt recordKey e p current anchor history) :
    p.authorization.operation ≠ .ownerKeyRotation := by
  intro hop
  have hkind := h.recordKind hp
  cases hstep with
  | genesis hg => cases hg.operation.symm.trans hop
  | ordinaryUpdate hu => cases hu.operation.symm.trans hop
  | replaceSigners hr => cases hr.operation.symm.trans hop
  | upgrade _ hu => cases hu.operation.symm.trans hop
  | rotateLegacy _ hr => cases hr.recordKind.symm.trans hkind
  | rotate hr =>
    obtain ⟨_, -, hrotation⟩ := hr.rotation
    cases hrotation.recordKind.symm.trans hkind

/-- An accepted update is accepted in the other letter case. -/
theorem update {current : Option MultisignatureState} {anchor : Option Bytes}
    (h : RecasedCandidate rt hash hash' e e' p p') (hp : p.Reads rt e)
    (hs : validateMultisignatureUpdate rt recordKey e current anchor = .ok s) :
    ∃ s', validateMultisignatureUpdate rt recordKey e' current anchor = .ok s' ∧
      s'.Reads rt p'.update := by
  obtain ⟨q, history, hq, hstep, -, -⟩ := validateMultisignatureUpdate_eq_ok.1 hs
  obtain rfl := hp.unique hq
  obtain ⟨history', hstep'⟩ := h.step hp hstep
  obtain ⟨owner, -, howner⟩ := h.reads.owner
  have hs' : candidateState rt recordKey p' history' = .ok (p'.state rt recordKey owner history') :=
    candidateState_eq_ok.2 ⟨owner, howner, rfl⟩
  refine ⟨_, validateMultisignatureUpdate_eq_ok.2 ⟨p', history', h.reads, hstep', ?_, hs'⟩,
    h.reads.state hs'⟩
  intro hop
  rw [h.authorization] at hop
  exact absurd hop (h.not_rotation hp hstep)

theorem withdraws (h : RecasedCandidate rt hash hash' e e' p p') (hp : p.Reads rt e) {b : Bool}
    (hb : DecentRegistry.withdraws p.update = .ok b) :
    DecentRegistry.withdraws p'.update = .ok b := by
  have hkind : p.update.authorization.recordKind = .provider := h.recordKind hp
  have hkind' : p'.update.authorization.recordKind = .provider := by
    rw [← hkind]
    exact congrArg Authorization.recordKind h.authorization
  rw [withdraws_eq_ok, hkind] at hb
  rw [withdraws_eq_ok, hkind']
  obtain ⟨payload, hpayload, hwithdrawn⟩ := hb
  refine ⟨_, h.decodePayload hpayload, ?_⟩
  rw [ProviderPayload.isWithdrawn_withHash, hwithdrawn]

/-- The check on a legacy predecessor does not look at the payload of the candidate. -/
theorem checkLegacyActivePredecessor_eq (h : RecasedCandidate rt hash hash' e e' p p') (x : Bytes) :
    checkLegacyActivePredecessor rt x p'.update = checkLegacyActivePredecessor rt x p.update := by
  have hfields : p'.update.recordFields = p.update.recordFields := h.recordFields
  simp only [checkLegacyActivePredecessor, hfields]

end RecasedCandidate

/-! ## Multisignature envelopes -/

/-- **An accepted transition is accepted in the other letter case.** -/
theorem Recased.transition {e e' recordKey : Bytes} {existing : Option Bytes}
    {chain : Option (List Bytes)} {s : MultisignatureState} (h : Recased rt hash hash' e e')
    (hs : validateMultisignatureTransition rt recordKey e existing chain = .ok s) :
    ∃ p p' s', s.Reads rt p.update ∧ RecasedCandidate rt hash hash' e e' p p' ∧
      s'.Reads rt p'.update ∧
      validateMultisignatureTransition rt recordKey e' existing chain = .ok s' := by
  obtain ⟨p, _, _, _, hp, -, -, -, hps⟩ := validateMultisignatureTransition_spec hs
  obtain ⟨p', hp'⟩ := h.candidate hp
  have hauthorization : p'.update.authorization = p.update.authorization := hp'.authorization
  simp only [validateMultisignatureTransition, hp.envelope, hp.decode, ok_bind] at hs
  simp only [validateMultisignatureTransition, hp'.reads.envelope, hp'.reads.decode, hauthorization,
    hp'.checkLegacyActivePredecessor_eq, ok_bind]
  obtain ⟨withdrawal, hwithdrawal, hs⟩ := bind_eq_ok.1 hs
  obtain ⟨_, hsome, hs⟩ := bind_eq_ok.1 hs
  obtain ⟨⟨current, anchor⟩, hcurrent, hs⟩ := bind_eq_ok.1 hs
  obtain ⟨s₁, hupdate, htail⟩ := bind_eq_ok.1 hs
  obtain ⟨s', hupdate', hps'⟩ := hp'.update hp hupdate
  refine ⟨p, p', s', hp.state hps, hp', hps', ?_⟩
  rw [hp'.withdraws hp hwithdrawal, ok_bind, hsome, ok_bind, hcurrent, ok_bind, hupdate', ok_bind]
  -- the check after the update is on the current state
  cases withdrawal with
  | false => rfl
  | true =>
    simp only [if_true, bind_eq_ok, pure_eq_ok] at htail ⊢
    obtain ⟨c, hc, u, hu, payload, hpayload, _, hactive, -⟩ := htail
    exact ⟨c, hc, u, hu, payload, hpayload, (), hactive, trivial⟩

/-- An accepted multisignature envelope is accepted in the other letter case. -/
theorem Recased.multisignatureOverwrite {e e' recordKey : Bytes} {existing : Option Bytes}
    {w : ProviderWrite} (h : Recased rt hash hash' e e')
    (hw : validateMultisignatureProviderOverwrite rt recordKey e existing = .ok w) :
    ∃ w', validateMultisignatureProviderOverwrite rt recordKey e' existing = .ok w' := by
  simp only [validateMultisignatureProviderOverwrite, bind_eq_ok] at hw
  obtain ⟨s, hs, u, hu, payload, hpayload, hrest⟩ := hw
  obtain ⟨p, p', s', hps, hp', hps', hs'⟩ := h.transition hs
  obtain rfl : p.update = u := Except.ok.inj (hps.update.symm.trans hu)
  have hpayload' : decodeProviderPayloadDict p'.update.payload = .ok (payload.withHash hash') :=
    hp'.decodePayload hpayload
  have hfields : p'.update.recordFields = p.update.recordFields := hp'.recordFields
  have hseq : p'.update.seq = p.update.seq := hp'.seq
  obtain ⟨metadata, hmetadata⟩ : ∃ metadata, authorizationMetadata rt s' = .ok metadata := by
    simp only [authorizationMetadata, hps'.update, ok_bind, pure_eq_ok, exists_eq']
  simp only [validateMultisignatureProviderOverwrite, hs', hps'.update, hpayload', ok_bind]
  cases payload with
  | active active =>
    simp only [bind_eq_ok] at hrest
    obtain ⟨v, hv, owner, howner, -⟩ := hrest
    simp only [ProviderPayload.withHash, hfields, hv, howner, hmetadata, ok_bind]
    exact ⟨_, rfl⟩
  | withdrawn tombstone =>
    simp only [bind_eq_ok, raiseIf_eq_ok, orRaise_eq_ok] at hrest
    obtain ⟨x, rfl, c, hc, cu, hcu, cp, hcp, _, hactive, v, hv, owner, howner, v', hv', owner',
      howner', _, hsame, _, hnewer, -⟩ := hrest
    simp only [ProviderPayload.withHash, hfields, hseq, hmetadata, bind_eq_ok, raiseIf_eq_ok,
      orRaise_eq_ok]
    exact ⟨_, x, rfl, c, hc, cu, hcu, cp, hcp, (), hactive, v, hv, owner, howner, v', hv', owner',
      howner', (), hsame, (), hnewer, _, rfl, rfl⟩

/-! ## Legacy envelopes -/

/-- The envelope is a legacy withdrawal. -/
def IsLegacyWithdrawal (rt : Runtime) (e : Bytes) : Prop :=
  isMultisignatureEnvelope rt e = false ∧ ∃ owner tombstone seq,
    readAsProvider rt e = .ok ⟨owner, .withdrawn tombstone, seq⟩

/-- The object hash of a legacy withdrawal is compared as a text. -/
theorem checkLegacyPredecessorOfLegacy_recase {x owner : Bytes} {seq : ℕ}
    {tombstone : ProviderWithdrawnPayloadV2} {u u' : Unit}
    (h : checkLegacyPredecessorOfLegacy rt x owner seq tombstone = .ok u) :
    checkLegacyPredecessorOfLegacy rt x owner seq { tombstone with objectHash := hash' } = .ok u' ↔
      hash' = tombstone.objectHash := by
  simp only [checkLegacyPredecessorOfLegacy, bind_eq_ok, Prod.exists] at h
  obtain ⟨xbytes, xsignature, hx, xupdate, hxupdate, v, hv, xowner, hxowner, valid, hvalid, _,
    hsame, xpayload, hxpayload, h⟩ := h
  simp only [checkLegacyPredecessorOfLegacy, hx, hxupdate, hv, hxowner, hvalid, hsame, hxpayload,
    ok_bind]
  cases xpayload with
  | withdrawn _ => simp at h
  | active active =>
    simp only [bind_eq_ok, raiseIf_eq_ok, exists_const, not_not] at h ⊢
    obtain ⟨hhash, hnewer⟩ := h
    rw [hhash]
    exact ⟨fun h => h.1.symm, fun h => ⟨h.symm, hnewer⟩⟩

/-- An accepted legacy envelope is accepted in the other letter case exactly when it is no
withdrawal, or the letter case is the same. -/
theorem Recased.legacyOverwrite {e e' recordKey : Bytes} {existing : Option Bytes}
    {w : ProviderWrite} (h : Recased rt hash hash' e e')
    (hw : validateLegacyProviderOverwrite rt recordKey e existing = .ok w) :
    (∃ w', validateLegacyProviderOverwrite rt recordKey e' existing = .ok w') ↔
      (IsLegacyWithdrawal rt e → hash' = hash) := by
  simp only [validateLegacyProviderOverwrite, bind_eq_ok, orRaise_eq_ok, Prod.exists] at hw
  obtain ⟨_, hlegacy, u, signature, hsigned, update, hoverwrite, update', hupdate, v, hv, owner,
    howner, payload, hpayload, hrest⟩ := hw
  obtain ⟨hstrict, kind, key, hkeys, hvalid, hfollow⟩ :=
    validateSignedUpdateOverwrite_eq_ok.1 hoverwrite
  obtain ⟨hdecode, hnone⟩ := decodeSignedUpdateStrict_eq_ok.1 hstrict
  obtain rfl := Except.ok.inj (hdecode.symm.trans hupdate)
  -- the candidate in the other letter case, up to its payload
  obtain ⟨u', signature', hsigned', hrecased, hresigned⟩ := h.decodeSignedEnvelope hsigned
  obtain ⟨hhash, hdecode'⟩ := hrecased.decode hdecode
  have hs := hrecased.sameLetters
  obtain ⟨hpayloadHash, hpayload'⟩ := decodeProviderPayloadDict_recase hs hhash hpayload
  have hoverwrite' : (validateSignedUpdateOverwrite rt recordKey u' signature' false).result
      (seqStateOf recordKey (existing.bind (extractProviderPrevSeqState rt))) =
        .ok { update with payload := recase update.payload hash' } :=
    validateSignedUpdateOverwrite_eq_ok.2 ⟨decodeSignedUpdateStrict_eq_ok.2 ⟨hdecode', hnone⟩, kind,
      key, extractLegacyKeys_recase hs hhash hkeys, hresigned.keys key hvalid, hfollow⟩
  simp only [validateLegacyProviderOverwrite, hlegacy, hsigned', hoverwrite', hdecode', hv, howner,
    hpayload', orRaise, ok_bind]
  have hreading : readAsProvider rt e = .ok ⟨owner, payload, update.seq⟩ := by
    refine (readAsProvider_eq_ok (signedUpdateOf_of_legacy hsigned) hdecode).2
      ⟨hpayload, ⟨v, hv, ?_⟩, rfl⟩
    rw [Value.asBytes?_eq_some] at howner
    rw [howner, toBytes]
  cases payload with
  | active active =>
    refine iff_of_true ⟨_, rfl⟩ ?_
    rintro ⟨-, _, _, _, hwithdrawal⟩
    cases hreading.symm.trans hwithdrawal
  | withdrawn tombstone =>
    have hwithdrawal : IsLegacyWithdrawal rt e :=
      ⟨isMultisignatureEnvelope_of_legacy hsigned, _, _, _, hreading⟩
    simp only [hwithdrawal, true_imp_iff]
    cases existing with
    | none => cases hrest
    | some x =>
      have hx : isMultisignatureEnvelope rt x = false := by
        by_contra hx
        exact raiseIf_eq_ok.1 hlegacy ⟨x, rfl, Bool.of_not_eq_false hx⟩
      simp only [orRaise, hx, Bool.false_eq_true, if_false, ok_bind, bind_eq_ok, raiseIf_eq_ok,
        not_not, exists_const, pure_eq_ok] at hrest
      obtain ⟨_, hcheck, key', hkey', hlookup, -⟩ := hrest
      simp only [ProviderPayload.withHash, hx, Bool.false_eq_true, if_false, ok_bind, bind_eq_ok,
        checkLegacyPredecessorOfLegacy_recase hcheck, exists_const]
      constructor
      · rintro ⟨_, hsame, -⟩
        exact hsame.trans hpayloadHash
      · intro hsame
        have hkey : fromHex hash' = .ok key' := by
          rw [← hs.fromHex_eq, ← hpayloadHash]
          exact hkey'
        have hkeys : raiseIf (key' ≠ recordKey) (valueError "lookup-key mismatch") = .ok () :=
          raiseIf_eq_ok.2 (by simpa using hlookup)
        exact ⟨_, hsame.trans hpayloadHash.symm, key', hkey, (), hkeys, rfl⟩

/-! ## The two runs -/

/-- What is accepted for reading is, where it replaces signers, signed by those it installs. -/
theorem replacementReadable_of_get {recordKey e : Bytes} {existing : Option Bytes}
    {r : ProviderRead} (h : validateProviderGet rt recordKey e existing = .ok r) :
    ReplacementReadable rt e := by
  intro p active hp hop hpayload
  rw [decodeMultisignatureCandidate_eq_ok] at hp
  have hpayload' : decodeProviderPayloadDict p.update.payload = .ok (.active active) := hpayload
  rw [validateProviderGet, if_pos (isMultisignatureEnvelope_of_decode hp.envelope)] at h
  simp only [validateMultisignatureProviderGet, hp.envelope, hp.decode, hpayload', ok_bind,
    bind_eq_ok, validateMultisignatureEnvelope_eq_ok] at h
  obtain ⟨_, ⟨q, _, hq, hstandalone, -⟩, -⟩ := h
  obtain rfl := hp.unique hq
  exact validateThresholdProofs_eq_ok.2 (hstandalone.replacement hop)

/-- The envelope is accepted for writing and for reading. -/
def AcceptedByBoth (rt : Runtime) (recordKey e : Bytes) (existing : Option Bytes) : Prop :=
  (∃ w, validateProviderOverwrite rt recordKey e existing = .ok w) ∧
    ∃ r, validateProviderGet rt recordKey e existing = .ok r

/-- **Another letter case leaves a candidate accepted, except for legacy withdrawals.** Those are
refused in any spelling but that of the record they withdraw. Replacements of signers are accepted
for reading in the one letter case as in the other. -/
theorem recasing_accepted_iff {recordKey e e' : Bytes} {existing : Option Bytes} {w : ProviderWrite}
    (h : Recased rt hash hash' e e')
    (hw : validateProviderOverwrite rt recordKey e existing = .ok w) :
    AcceptedByBoth rt recordKey e' existing ↔
      (IsLegacyWithdrawal rt e → hash' = hash) ∧ ReplacementReadable rt e' := by
  have hoverwrite : (∃ w', validateProviderOverwrite rt recordKey e' existing = .ok w') ↔
      (IsLegacyWithdrawal rt e → hash' = hash) := by
    unfold validateProviderOverwrite at hw ⊢
    rw [h.isMultisignatureEnvelope_eq]
    cases hmultisig : isMultisignatureEnvelope rt e with
    | true =>
      rw [if_pos hmultisig] at hw
      refine iff_of_true ?_ ?_
      · simpa using h.multisignatureOverwrite hw
      · intro hlegacy
        cases hlegacy.1.symm.trans hmultisig
    | false =>
      rw [if_neg (by simp [hmultisig])] at hw
      simpa using h.legacyOverwrite hw
  constructor
  · rintro ⟨hw', r, hr⟩
    exact ⟨hoverwrite.1 hw', replacementReadable_of_get hr⟩
  · rintro ⟨hcase, hreadable⟩
    obtain ⟨w', hw'⟩ := hoverwrite.2 hcase
    obtain ⟨r, hr, -⟩ :=
      (validateProviderOverwrite_readback rt recordKey e' existing w' hw').2 hreadable
    exact ⟨⟨w', hw'⟩, r, hr⟩

/-- The multisignature withdrawal is accepted in upper case too. -/
theorem upperProviderWithdrawal_accepted :
    AcceptedByBoth Sample.runtime Sample.providerKey Sample.upperProviderWithdrawal
      (some Sample.providerGenesis) := by
  refine (recasing_accepted_iff Sample.recased_providerWithdrawal
    (eq_ok_valueOf Sample.providerWithdrawal_readable.1)).2 ⟨?_, ?_⟩
  · intro hlegacy
    have hmultisig : isMultisignatureEnvelope Sample.runtime Sample.providerWithdrawal = true := by
      decide +kernel
    cases hlegacy.1.symm.trans hmultisig
  · intro p _ hp hop
    have hoperation : (·.authorization.operation) <$> decodeMultisignatureCandidate Sample.runtime
        Sample.upperProviderWithdrawal = .ok .ordinaryUpdate := by decide +kernel
    rw [hp] at hoperation
    cases (Except.ok.inj hoperation).symm.trans hop

/-- **A withdrawal that its spelling makes unacceptable.** The withdrawal of the legacy Provider
Record is accepted; in upper case neither path accepts it. -/
theorem upperWithdrawal_refused :
    Recased Sample.runtime (toHex Sample.providerKey) Sample.capitals Sample.legacyWithdrawal
        Sample.upperWithdrawal ∧
      AcceptedByBoth Sample.runtime Sample.providerKey Sample.legacyWithdrawal
        (some Sample.legacyProvider) ∧
      (validateProviderOverwrite Sample.runtime Sample.providerKey Sample.upperWithdrawal
        (some Sample.legacyProvider)).isOk = false ∧
      (validateProviderGet Sample.runtime Sample.providerKey Sample.upperWithdrawal
        (some Sample.legacyProvider)).isOk = false := by
  obtain ⟨hput, hget⟩ := Sample.legacyWithdrawal_readable
  have hrefused :
      (validateProviderOverwrite Sample.runtime Sample.providerKey Sample.upperWithdrawal
        (some Sample.legacyProvider)).isOk = false ∧
      (validateProviderGet Sample.runtime Sample.providerKey Sample.upperWithdrawal
        (some Sample.legacyProvider)).isOk = false := by
    decide +kernel
  exact ⟨Sample.recased_legacyWithdrawal, ⟨⟨_, eq_ok_valueOf hput⟩, _, eq_ok_valueOf hget⟩,
    hrefused⟩

end DecentRegistry
