import DecentRegistry.Authority.Lineage
import DecentRegistry.Dht.Keys
import DecentRegistry.Dht.Results
import DecentRegistry.Dht.Writes
import DecentRegistry.Provider.Readback
import DecentRegistry.Sample.Dht

/-!
# The owner of a Provider in the durable store

A multisignature Provider head stays a multisignature envelope of the same owner wherever a
candidate is validated over it (`ownedBy_of_overwrite`). A read validates the value of the DHT by
itself, with the signer set it carries, unless it is a withdrawal; a put and a value put by a peer
are validated over the newest of several values. The owner is kept in the runs in which these values
continue the head (`ProviderContinues`, `providerOwner_bound`), and not in others
(`hostileProvider_downgrades`). -/

namespace DecentRegistry

open Fallible PyValue Coroutine

variable {rt : Runtime} {d : DhtInstance} {recordKey owner : Bytes}

/-! ## Owned envelopes -/

/-- A multisignature Provider envelope of an owner. -/
structure IsOwnedBy (rt : Runtime) (owner e : Bytes) : Prop where
  multisignature : isMultisignatureEnvelope rt e = true
  owner : envelopeOwner rt .provider e = .ok owner

theorem IsOwnedBy.seq {e : Bytes} (h : IsOwnedBy rt owner e) : ∃ n, envelopeSeq rt e = .ok n := by
  have howner := h.owner
  simp only [envelopeOwner, signedUpdateOf, h.multisignature, if_true, bind_eq_ok, pure_eq_ok]
    at howner
  obtain ⟨_, ⟨env, henv, rfl⟩, u, hu, -⟩ := howner
  exact ⟨_, (isHead_of_update (envelopeSignedUpdateBytes_of_multisignature henv) hu).seq⟩

/-- A Provider candidate over a multisignature envelope: the envelope is acceptable on its own, and
the owner is the same. -/
theorem owner_of_transition {p : Candidate} {e x : Bytes} {s : MultisignatureState}
    {payload : ProviderPayload} (hx : isMultisignatureEnvelope rt x = true) (hp : p.Reads rt e)
    (hpayload : decodeProviderPayloadDict p.payload = .ok payload)
    (h : validateMultisignatureTransition rt recordKey e (some x) none = .ok s) :
    (validateMultisignatureEnvelope rt recordKey x).isOk = true ∧
      envelopeOwner rt .provider e = envelopeOwner rt .provider x := by
  obtain ⟨p', history, current, anchor, hp', hfrom, hstep, -, -⟩ :=
    validateMultisignatureTransition_spec h
  obtain rfl := hp.unique hp'
  have hkind := hp.provider_of_payload hpayload
  simp only [StepsFrom, hx, if_true] at hfrom
  obtain ⟨c, rfl, rfl, hc, hnot, -⟩ := hfrom
  obtain ⟨q, _, hq, -, hqc⟩ := validateMultisignatureEnvelope_eq_ok.1 hc
  have howner : ∀ hcommon : IsCommonTransition rt recordKey p c,
      envelopeOwner rt .provider e = envelopeOwner rt .provider x := by
    intro hcommon
    have hck : c.recordKind = .provider := hcommon.recordKind.symm.trans hkind
    have hsame := hcommon.owner
    rw [hck] at hsame
    rw [envelopeOwner_candidate _ hp, hsame, ← hck, envelopeOwner_state hq hqc]
  refine ⟨by rw [hc]; rfl, ?_⟩
  cases hstep with
  | ordinaryUpdate h => exact howner h.toIsCommonTransition
  | replaceSigners h => exact howner h.toIsCommonTransition
  | rotate h =>
    obtain ⟨_, -, hrotation⟩ := h.rotation
    exact absurd hrotation.operation hnot

/-- A candidate over a legacy envelope has decoded it. -/
theorem decodeLegacyState_of_transition {e x : Bytes} {s : MultisignatureState}
    (hx : isMultisignatureEnvelope rt x = false)
    (h : validateMultisignatureTransition rt recordKey e (some x) none = .ok s) :
    (decodeLegacyState rt recordKey x).isOk = true := by
  obtain ⟨p, history, current, anchor, -, hfrom, hstep, -, -⟩ :=
    validateMultisignatureTransition_spec h
  simp only [StepsFrom, hx, Bool.false_eq_true, if_false] at hfrom
  obtain ⟨rfl, rfl⟩ := hfrom
  cases hstep with
  | upgrade hlegacy => rw [decodeLegacyState_eq_ok.2 hlegacy]; rfl
  | rotateLegacy hlegacy => rw [decodeLegacyState_eq_ok.2 hlegacy]; rfl

/-! ## What continues a head -/

/-- A value that continues a multisignature head: a multisignature envelope that is of the same
owner if it is acceptable on its own, or something that does not decode as a legacy record. -/
structure ProviderContinues (rt : Runtime) (recordKey head e : Bytes) : Prop where
  sameOwner : isMultisignatureEnvelope rt e = true →
    (validateMultisignatureEnvelope rt recordKey e).isOk = true →
      envelopeOwner rt .provider e = envelopeOwner rt .provider head
  upgraded : isMultisignatureEnvelope rt e = false →
    (decodeLegacyState rt recordKey e).isOk = false

/-- A value that displaces a multisignature head. -/
structure Displaces (rt : Runtime) (head : Option Bytes) (L e : Bytes) : Prop where
  head : head = some L
  multisignature : isMultisignatureEnvelope rt L = true
  newer : selectNewestEnvelope rt (some e) (some L) = .ok (some e)
  other : e ≠ L

/-- A value of the DHT that continues the head it displaces. -/
def ProviderFits (rt : Runtime) (recordKey : Bytes) (head dht : Option Bytes) : Prop :=
  ∀ e ∈ dht, ∀ L, Displaces rt head L e → ProviderContinues rt recordKey L e

/-- What takes the place of a head is of its owner. -/
def KeepsOwner (rt : Runtime) (head : Option Bytes) (e : Bytes) : Prop :=
  ∀ L ∈ head, ∀ owner, IsOwnedBy rt owner L → IsOwnedBy rt owner e

theorem keepsOwner_of_legacy {head : Option Bytes} {e : Bytes}
    (h : isMultisignatureValue rt head = false) : KeepsOwner rt head e := by
  intro L hL owner howned
  rw [isMultisignatureValue, Option.any_eq_false] at h
  exact absurd howned.multisignature (by simp [h L hL])

/-- The newest of the DHT value and an owned head: the head, or a value that displaces it. -/
theorem existing_of_owned {head dht existing : Option Bytes} {L : Bytes} (hL : head = some L)
    (howned : IsOwnedBy rt owner L) (h : selectNewestEnvelope rt dht head = .ok existing) :
    existing = some L ∨ ∃ x, existing = some x ∧ dht = some x ∧ Displaces rt head L x := by
  subst hL
  obtain ⟨n, hn⟩ := howned.seq
  rcases selectNewestEnvelope_head hn h with hx | ⟨x, _, rfl, hne, rfl, -⟩
  · exact .inl hx
  · exact .inr ⟨x, rfl, rfl, rfl, howned.multisignature, h, hne⟩

/-- **A multisignature candidate keeps the owner**, when it is accepted over the newer of the head
and a value that fits it. -/
theorem keepsOwner_of_overwrite {head dht existing : Option Bytes} {e : Bytes} {w : ProviderWrite}
    (hfits : ProviderFits rt recordKey head dht)
    (hselect : selectNewestEnvelope rt dht head = .ok existing)
    (he : isMultisignatureEnvelope rt e = true)
    (h : validateProviderOverwrite rt recordKey e existing = .ok w) : KeepsOwner rt head e := by
  intro L hL owner howned
  rw [validateProviderOverwrite, if_pos he] at h
  simp only [validateMultisignatureProviderOverwrite, bind_eq_ok] at h
  obtain ⟨s, htransition, u, hu, payload, hpayload, -⟩ := h
  obtain ⟨p, history, _, _, hp, -, -, -, hs⟩ := validateMultisignatureTransition_spec htransition
  obtain rfl : p.update = u := Except.ok.inj ((hp.state hs).update.symm.trans hu)
  refine ⟨he, ?_⟩
  rcases existing_of_owned hL howned hselect with rfl | ⟨x, rfl, hdht, hdisplaces⟩
  · rw [(owner_of_transition howned.multisignature hp hpayload htransition).2, howned.owner]
  · have hcontinues := hfits x hdht L hdisplaces
    by_cases hx : isMultisignatureEnvelope rt x = true
    · obtain ⟨hok, howner⟩ := owner_of_transition hx hp hpayload htransition
      rw [howner, hcontinues.sameOwner hx hok, howned.owner]
    · rw [Bool.not_eq_true] at hx
      have := decodeLegacyState_of_transition hx htransition
      rw [hcontinues.upgraded hx] at this
      cases this

/-- A legacy withdrawal is accepted over none but a legacy record. -/
theorem not_multisignature_of_legacyProvider {e : Bytes} {existing : Option Bytes}
    {w : ProviderWrite} (he : isMultisignatureEnvelope rt e = false)
    (h : validateProviderOverwrite rt recordKey e existing = .ok w) :
    ∀ x ∈ existing, isMultisignatureEnvelope rt x = false := by
  simp only [validateProviderOverwrite, he, Bool.false_eq_true, if_false,
    validateLegacyProviderOverwrite, bind_eq_ok, raiseIf_eq_ok, not_exists, not_and,
    Bool.not_eq_true] at h
  exact h.choose_spec.1

/-- A value that is read over a head is validated over the head or over no predecessor. -/
theorem validateProviderGet_of_current {history : Option (List Bytes)} {L e : Bytes}
    {r : ProviderRead} (hne : e ≠ L)
    (h : validateCurrentProvider rt recordKey e (some L) history = some r) :
    ∃ existing, validateProviderGet rt recordKey e existing = .ok r ∧
      (existing = none ∨ existing = some L) := by
  have hpredecessor : withdrawalPredecessor history (some L) e = some L := by
    simp [withdrawalPredecessor, hne.symm]
  simp only [validateCurrentProvider, hpredecessor] at h
  split at h
  · rename_i result hresult
    subst h
    simp only [bind_eq_ok] at hresult
    obtain ⟨_, -, u, -, payload, -, hresult⟩ := hresult
    split at hresult
    · simp only [bind_eq_ok, pure_eq_ok, Option.some.injEq, exists_eq_right] at hresult
      exact ⟨_, hresult, .inr rfl⟩
    · simp only [bind_eq_ok, pure_eq_ok, Option.some.injEq, exists_eq_right] at hresult
      exact ⟨_, hresult, .inl rfl⟩
  · cases h

/-- A multisignature value that is read over an owned head is of its owner: a withdrawal by the
transition from the head, an active record since it fits the head. -/
theorem isOwnedBy_of_get {L e : Bytes} {existing : Option Bytes} {r : ProviderRead}
    (howned : IsOwnedBy rt owner L) (hcontinues : ProviderContinues rt recordKey L e)
    (he : isMultisignatureEnvelope rt e = true)
    (hget : validateProviderGet rt recordKey e existing = .ok r)
    (hexisting : existing = none ∨ existing = some L) : IsOwnedBy rt owner e := by
  refine ⟨he, ?_⟩
  simp only [validateProviderGet, he, if_true, validateMultisignatureProviderGet,
    bind_eq_ok] at hget
  obtain ⟨env, henv, u, hu, payload, hpayload, hget⟩ := hget
  cases payload with
  | withdrawn payload =>
    simp only [bind_eq_ok, orRaise_eq_ok] at hget
    obtain ⟨x, rfl, s, htransition, -⟩ := hget
    obtain rfl : x = L := by simpa using hexisting
    obtain ⟨p, _, _, _, hp, -⟩ := validateMultisignatureTransition_spec htransition
    obtain rfl : p.envelope = env := Except.ok.inj (hp.envelope.symm.trans henv)
    rw [hp.signedUpdateBytes] at hu
    obtain rfl : p.update = u := Except.ok.inj (hp.update.symm.trans hu)
    rw [(owner_of_transition howned.multisignature hp hpayload htransition).2, howned.owner]
  | active payload =>
    simp only [bind_eq_ok] at hget
    obtain ⟨s, hs, -⟩ := hget
    rw [hcontinues.sameOwner he (by rw [hs]; rfl), howned.owner]

/-- No legacy value that is read over a multisignature head fits it. -/
theorem multisignature_of_get {L e : Bytes} {existing : Option Bytes} {r : ProviderRead}
    (hL : isMultisignatureEnvelope rt L = true) (hcontinues : ProviderContinues rt recordKey L e)
    (hget : validateProviderGet rt recordKey e existing = .ok r)
    (hexisting : existing = none ∨ existing = some L) :
    isMultisignatureEnvelope rt e = true := by
  by_contra he
  rw [Bool.not_eq_true] at he
  simp only [validateProviderGet, he, Bool.false_eq_true, if_false, validateLegacyProviderGet,
    bind_eq_ok, Prod.exists] at hget
  obtain ⟨bytes, signature, hsigned, u, -, payload, -, hget⟩ := hget
  cases payload with
  | withdrawn payload =>
    simp only [bind_eq_ok, orRaise_eq_ok] at hget
    obtain ⟨x, rfl, w, hw, -⟩ := hget
    obtain rfl : x = L := by simpa using hexisting
    simp only [validateLegacyProviderWithdrawal, bind_eq_ok, Prod.exists] at hw
    obtain ⟨_, _, -, _, -, _, -, payload', -, hw⟩ := hw
    cases payload' with
    | active _ => simp at hw
    | withdrawn _ =>
      simp only [bind_eq_ok, Prod.exists] at hw
      obtain ⟨_, _, hx, -⟩ := hw
      have hlegacy := isMultisignatureEnvelope_of_legacy hx
      rw [hL] at hlegacy
      cases hlegacy
  | active payload =>
    simp only [bind_eq_ok] at hget
    obtain ⟨_, hcheck, -⟩ := hget
    obtain ⟨_, _, hreads⟩ := LegacyState.Reads.of_overwrite hsigned hcheck
    have hupgraded := hcontinues.upgraded he
    rw [decodeLegacyState_eq_ok.2 hreads] at hupgraded
    cases hupgraded

/-- **What a read caches keeps the owner**: a withdrawal is validated over the head, and any other
value fits it. -/
theorem keepsOwner_of_get {head : Option Bytes} {history : Option (List Bytes)} {e : Bytes}
    {r : ProviderRead} (hfits : ProviderFits rt recordKey head (some e))
    (hselect : selectNewestEnvelope rt (some e) head = .ok (some e))
    (h : validateCurrentProvider rt recordKey e head history = some r) : KeepsOwner rt head e := by
  intro L hL owner howned
  obtain rfl : head = some L := hL
  rcases existing_of_owned rfl howned hselect with heq | ⟨x, hx, -, hdisplaces⟩
  · obtain rfl := Option.some.inj heq
    exact howned
  obtain rfl := Option.some.inj hx
  have hcontinues := hfits e rfl L hdisplaces
  obtain ⟨existing, hget, hexisting⟩ := validateProviderGet_of_current hdisplaces.other h
  exact isOwnedBy_of_get howned hcontinues
    (multisignature_of_get howned.multisignature hcontinues hget hexisting) hget hexisting

/-! ## One call -/

/-- Every owned head of the one store is followed by a head of the same owner. -/
def KeepsOwners (rt : Runtime) (D D' : LMDBDatastore) : Prop :=
  ∀ key L owner, D.get .provider key = some L → IsOwnedBy rt owner L →
    ∃ L', D'.get .provider key = some L' ∧ IsOwnedBy rt owner L'

theorem keepsOwners_refl (D : LMDBDatastore) : KeepsOwners rt D D :=
  fun _ L _ hL howned => ⟨L, hL, howned⟩

theorem keepsOwners_trans {D D' D'' : LMDBDatastore} (h : KeepsOwners rt D D')
    (h' : KeepsOwners rt D' D'') : KeepsOwners rt D D'' := by
  intro key L owner hL howned
  obtain ⟨L', hL', howned'⟩ := h key L owner hL howned
  exact h' key L' owner hL' howned'

variable {D : LMDBDatastore}

/-- **One write** of what keeps the owner of the head. -/
theorem keepsOwners_of_replaces {e : Bytes} {D' : LMDBDatastore}
    (he : KeepsOwner rt (D.get .provider recordKey) e)
    (h : Replaces .provider recordKey e D D') : KeepsOwners rt D D' := by
  intro key L owner hL howned
  rcases h .provider key with hsame | ⟨-, rfl, hnew⟩
  · exact ⟨L, hsame ▸ hL, howned⟩
  · exact ⟨e, hnew, he L hL owner howned⟩

/-- A write of an Identity. -/
theorem keepsOwners_of_identity {e : Bytes} {D' : LMDBDatastore}
    (h : Replaces .identity recordKey e D D') : KeepsOwners rt D D' := by
  intro key L owner hL howned
  rcases h .provider key with hsame | ⟨hkind, -⟩
  · exact ⟨L, hsame ▸ hL, howned⟩
  · cases hkind

/-- What the DHT answers to the read of a Provider fits its head. -/
def ProviderAnswerFits (rt : Runtime) (q : Request) (s : DhtState) (r : Py q.Answer) : Prop :=
  match q, r with
  | .getValue key _, .ok dht => ∀ hash recordKey, key = kadKey hash .provider →
      fromHex hash = .ok recordKey →
        ProviderFits rt recordKey (s.durable.get .provider recordKey) dht
  | _, _ => True

/-- The answers fit the heads, and leave the durable store alone. -/
def providerFitting (rt : Runtime) : Contract DhtState Request Request.Answer PyError :=
  ⟨fun q s r t => ProviderAnswerFits rt q s r ∧ Answered q s r t, fun _ _ => True⟩

theorem undisturbed_providerFitting : Undisturbed (providerFitting rt) :=
  ⟨fun _ _ _ _ h => h.2.sameDurable, fun _ _ => trivial⟩

theorem readProviderValue_finds {objectHash : Text} (hkey : fromHex objectHash = .ok recordKey)
    (quorum : ℕ) :
    Finds (providerFitting rt) D (readDhtValue (kadKey objectHash .provider) quorum)
      (ProviderFits rt recordKey (D.get .provider recordKey)) := by
  refine .orOnException (.request undisturbed_providerFitting fun s x t hs h => ?_)
    (.pure fun _ h => by cases h)
  exact hs ▸ h.1 _ _ rfl hkey

section Puts

variable {e : Bytes}

theorem storePut_keepsOwners (he : KeepsOwner rt (D.get .provider recordKey) e) :
    Leaves (providerFitting rt) D (storePut .provider recordKey e) (KeepsOwners rt D) :=
  .of_writes undisturbed_providerFitting storePut_writes fun _ => keepsOwners_of_replaces he

theorem durableInstall_keepsOwners (he : KeepsOwner rt (D.get .provider recordKey) e)
    {result : ResultAttributes} {history : Option (List Bytes)} :
    Leaves (providerFitting rt) D (durableInstall rt d .provider recordKey e result history)
      (KeepsOwners rt D) :=
  .of_writes undisturbed_providerFitting durableInstall_writes fun _ => keepsOwners_of_replaces he

theorem durableCache_keepsOwners (he : KeepsOwner rt (D.get .provider recordKey) e)
    {result : ResultAttributes} {history : Option (List Bytes)} :
    Leaves (providerFitting rt) D (durableCache rt d .provider recordKey e result history)
      (KeepsOwners rt D) :=
  .of_writes undisturbed_providerFitting durableCache_writes fun _ => keepsOwners_of_replaces he

theorem putLegacyProvider_keepsOwners (objectHash : Text) (dht : Option Bytes)
    (hlegacy : isMultisignatureValue rt (D.get .provider recordKey) = false) :
    Leaves (providerFitting rt) D
      (putLegacyProvider rt d objectHash recordKey e dht (D.get .provider recordKey))
      (KeepsOwners rt D) := by
  have hrefl : KeepsOwners rt D D := keepsOwners_refl D
  have he : KeepsOwner rt (D.get .provider recordKey) e := keepsOwner_of_legacy hlegacy
  unfold putLegacyProvider
  refine .when hrefl (fun _ => .lift fun _ _ => trivial) fun _ => ?_
  refine .bind (Φ := fun _ => True) hrefl (.lift fun _ _ => trivial) fun result _ => ?_
  refine .bind (Φ := fun _ => True) hrefl (.lift fun _ _ => trivial) fun _ _ => ?_
  refine .bind hrefl ((publishDhtValue_quiet _ _ _).finds undisturbed_providerFitting)
    fun _ _ => ?_
  split
  · split
    · exact durableInstall_keepsOwners he
    · exact storePut_keepsOwners he
  · exact .pure hrefl

/-- The head is unchanged where that is checked. -/
theorem requireUnchangedHead_finds (hd : d.durableStore.isSome = true) (existing : Option Bytes) :
    Finds (providerFitting rt) D (requireUnchangedHead d recordKey existing)
      fun _ => D.get .provider recordKey = existing := by
  refine .bind (.durableGet undisturbed_providerFitting hd _ _) ?_
  rintro _ rfl
  exact .lift fun _ h => not_not.1 (raiseIf_eq_ok.1 h)

theorem putAcceptedProvider_keepsOwners (hd : d.durableStore.isSome = true) (objectHash : Text)
    {dht : Option Bytes} (hfits : ProviderFits rt recordKey (D.get .provider recordKey) dht) :
    Leaves (providerFitting rt) D
      (putAcceptedProvider rt d objectHash recordKey e dht (D.get .provider recordKey))
      (KeepsOwners rt D) := by
  have hrefl : KeepsOwners rt D D := keepsOwners_refl D
  have hpublish : Quiet (publishDhtValue (kadKey objectHash .provider) e none) fun _ => True :=
    publishDhtValue_quiet _ _ _
  refine .bind hrefl (.lift fun _ h => h) fun existing hselect => ?_
  refine .bind hrefl (.lift fun _ h => h) fun result hresult => ?_
  have hmultisig (he : isMultisignatureEnvelope rt e = true) :
      KeepsOwner rt (D.get .provider recordKey) e :=
    keepsOwner_of_overwrite hfits hselect he hresult
  split
  · refine .bind (Φ := fun _ => True) hrefl (.lift fun _ _ => trivial) fun _ _ => ?_
    refine .bind hrefl ((durableHistory_quiet _ _).finds undisturbed_providerFitting)
      fun history _ => ?_
    have hinstall (he : KeepsOwner rt (D.get .provider recordKey) e) (result : ResultAttributes)
        (history : Option (List Bytes)) : Leaves (providerFitting rt) D (do
          durableInstall rt d .provider recordKey e result history
          publishDhtValue (kadKey objectHash .provider) e none) (KeepsOwners rt D) :=
      .bind_quiet undisturbed_providerFitting (durableInstall_keepsOwners he) fun _ => hpublish
    split
    · refine .bind hrefl (requireUnchangedHead_finds hd existing) fun _ hsame => hinstall ?_ _ _
      by_cases he : isMultisignatureEnvelope rt e = true
      · exact hmultisig he
      · refine keepsOwner_of_legacy ?_
        rw [hsame, isMultisignatureValue, Option.any_eq_false]
        intro x hx
        rw [not_multisignature_of_legacyProvider (by simpa using he) hresult x hx]
    · rename_i hnone
      refine hinstall (fun L hL => absurd ⟨hd, ?_⟩ hnone) _ _
      rw [Option.mem_def.1 hL]
      rfl
  · split
    · exact .bind_quiet undisturbed_providerFitting (durableInstall_keepsOwners (hmultisig ‹_›))
        fun _ => hpublish
    · exact .of_finds hrefl (hpublish.finds undisturbed_providerFitting)

end Puts

theorem putSignedProviderRecord_keepsOwners (hd : d.durableStore.isSome = true)
    (objectHash : Text) (e : Bytes) :
    Leaves (providerFitting rt) D (putSignedProviderRecord rt d objectHash e)
      (KeepsOwners rt D) := by
  have hrefl : KeepsOwners rt D D := keepsOwners_refl D
  refine .bind hrefl (.lift fun _ h => h) fun recordKey hkey => ?_
  refine .withAcceptedLock undisturbed_providerFitting hrefl ?_
  refine .bind hrefl (readProviderValue_finds hkey 0) fun dht hfits => ?_
  refine .bind hrefl (.durableGet undisturbed_providerFitting hd _ _) ?_
  rintro _ rfl
  split
  · exact putAcceptedProvider_keepsOwners hd objectHash hfits
  · rename_i hlegacy
    refine putLegacyProvider_keepsOwners objectHash dht ?_
    simp only [usesAcceptedState, Bool.or_eq_true, not_or, Bool.not_eq_true] at hlegacy
    exact hlegacy.1.1.1.2

theorem getSignedProviderRecord_keepsOwners (hd : d.durableStore.isSome = true)
    (objectHash : Text) (quorum : ℕ) :
    Leaves (providerFitting rt) D (getSignedProviderRecord rt d objectHash quorum)
      (KeepsOwners rt D) := by
  have hrefl : KeepsOwners rt D D := keepsOwners_refl D
  refine .bind hrefl (.lift fun _ h => h) fun recordKey hkey => ?_
  refine .bind hrefl (readProviderValue_finds hkey quorum) fun dht hfits => ?_
  refine .bind hrefl (.durableGet undisturbed_providerFitting hd _ _) ?_
  rintro _ rfl
  refine .bind hrefl (.lift fun _ h => rewrap_eq_ok.1 h) fun rawCurrent hselect => ?_
  split
  · exact .pure hrefl
  rename_i current
  refine .bind hrefl ((durableHistory_quiet _ _).finds undisturbed_providerFitting)
    fun history _ => ?_
  split
  · exact .pure hrefl
  rename_i result hresult
  split
  · rename_i hdht
    subst hdht
    exact .bind_quiet undisturbed_providerFitting
      (durableCache_keepsOwners (keepsOwner_of_get hfits hselect hresult)) fun _ => .pure trivial
  · exact .pure hrefl

/-! ## Values put by peers -/

/-- The value in memory that a peer's value is validated over: a multisignature one that continues
the head, if it displaces it. -/
def MemoryFits (rt : Runtime) (s : DhtState) (key : Text) : Prop :=
  ∀ hash recordKey, key = kadKey hash .provider → fromHex hash = .ok recordKey →
    ProviderFits rt recordKey (s.durable.get .provider recordKey)
        (s.surroundings.valueStore (utf8 key)) ∧
      ∀ m ∈ s.surroundings.valueStore (utf8 key), ∀ L,
        Displaces rt (s.durable.get .provider recordKey) L m → isMultisignatureEnvelope rt m = true

/-- The hooked `get` of a Provider is the `get` of the value store. -/
theorem valueStoreGet_provider {key : Text} (hparse : parseKey key = .ok (.provider, recordKey)) :
    valueStoreGet rt d (utf8 key) = originalGet (utf8 key) := by
  obtain ⟨hash, rfl, -⟩ := parseKey_eq_ok.1 hparse
  obtain ⟨_, hhistory⟩ := parseIdentityHistoryKey_kadKey hash .provider
  simp only [valueStoreGet, hhistory, decodeUtf8_utf8, ok_bind, hparse]

/-- A peer's Provider is validated over the newer of the head and the value in memory. -/
theorem validateDhtRecord_keepsOwner (hd : d.durableStore.isSome = true) {key : Text} {e : Bytes}
    (hparse : parseKey key = .ok (.provider, recordKey)) {s : DhtState}
    (hfits : MemoryFits rt s key) :
    wp (providerFitting rt) (validateDhtRecord rt d none key e)
      (fun x t => t.durable = s.durable ∧ ∀ a, x = .ok a → ∀ result ∈ a,
        KeepsOwner rt (s.durable.get .provider recordKey) e) s := by
  obtain ⟨hash, rfl, hkey, -⟩ := parseKey_eq_ok.1 hparse
  obtain ⟨hfits, hmemory⟩ := hfits hash recordKey rfl hkey
  have hsame {p : Dht (Option AcceptedResult)} {Φ : Option AcceptedResult → Prop}
      (h : Finds (providerFitting rt) s.durable p Φ) := h s rfl
  unfold validateDhtRecord
  rw [hparse]
  refine wp_bind.2 (wp_lift.2 ?_)
  dsimp only
  rw [if_neg (by simp), valueStoreGet_provider hparse]
  refine wp_bind.2 (wp_reads.2 ⟨trivial, hsame ?_⟩)
  refine .bind (.durableGet undisturbed_providerFitting hd _ _) ?_
  rintro _ rfl
  refine .bind (.lift fun _ h => h) fun existing hselect => ?_
  split
  · exact .pure (by simp)
  refine .bind (Φ := fun _ => KeepsOwner rt (s.durable.get .provider recordKey) e) ?_
    fun result hresult => .pure fun _ _ => hresult
  refine .bind (.lift fun _ h => h) fun w hw => .pure ?_
  simp only [existingForRecord, reduceCtorEq, false_or] at hselect
  split at hselect
  · by_cases he : isMultisignatureEnvelope rt e = true
    · exact keepsOwner_of_overwrite hfits hselect he hw
    · intro L hL owner howned
      have hlegacy := not_multisignature_of_legacyProvider (by simpa using he) hw
      rcases existing_of_owned hL howned hselect with rfl | ⟨x, rfl, hx, hdisplaces⟩
      · simp [howned.multisignature] at hlegacy
      · simp [hmemory x hx L hdisplaces] at hlegacy
  · rename_i hunused
    refine keepsOwner_of_legacy ?_
    simp only [usesAcceptedState, Bool.or_eq_true, not_or, Bool.not_eq_true] at hunused
    exact hunused.1.1.1.2

theorem prepareDurableAcceptance_keepsOwner (hd : d.durableStore.isSome = true) (key value : Bytes)
    {s : DhtState} (hfits : ∀ text, decodeUtf8 key = .ok text → MemoryFits rt s text) :
    wp (providerFitting rt) (prepareDurableAcceptance rt d false none key value)
      (fun x t => t.durable = s.durable ∧ ∀ a, x = .ok a → ∀ b ∈ a, b.kind = .provider →
        KeepsOwner rt (s.durable.get .provider b.recordKey) b.envelope) s := by
  unfold prepareDurableAcceptance
  split
  · simp
  split
  · simp
  rename_i kind recordKey hparse
  simp only [bind_eq_ok, pure_eq_ok, Prod.mk.injEq] at hparse
  obtain ⟨text, htext, _, hparse, rfl, rfl⟩ := hparse
  cases kind with
  | identity =>
    have hquiet : Quiet (validateDhtRecord rt d none text value) _ := validateDhtRecord_quiet _ _ _
    refine wp_bind_of (hquiet.finds undisturbed_providerFitting s rfl)
      (fun e t ht => ⟨ht.1, fun _ h => by cases h⟩) ?_
    rintro (_ | result) t ⟨ht, -⟩
    · exact ⟨ht, by rintro _ ⟨⟩ _ ⟨⟩⟩
    · exact ⟨ht, by rintro _ ⟨⟩ _ ⟨⟩ ⟨⟩⟩
  | provider =>
    refine wp_bind_of (validateDhtRecord_keepsOwner hd hparse (hfits text htext))
      (fun e t ht => ⟨ht.1, fun _ h => by cases h⟩) ?_
    rintro (_ | result) t ⟨ht, hkeeps⟩
    · exact ⟨ht, by rintro _ ⟨⟩ _ ⟨⟩⟩
    · refine ⟨ht, ?_⟩
      rintro _ ⟨⟩ _ ⟨⟩ -
      exact hkeeps _ rfl _ rfl

theorem commitDurableAcceptance_keepsOwners {accepted : Option PreparedAcceptance}
    (h : ∀ a ∈ accepted, a.kind = .provider →
      KeepsOwner rt (D.get .provider a.recordKey) a.envelope) :
    Leaves (providerFitting rt) D (commitDurableAcceptance rt d accepted) (KeepsOwners rt D) := by
  have hrefl : KeepsOwners rt D D := keepsOwners_refl D
  unfold commitDurableAcceptance
  split
  · exact .pure hrefl
  rename_i a
  replace h := h a rfl
  split
  · exact .pure hrefl
  refine .bind hrefl ((durableGet_quiet _ _).finds undisturbed_providerFitting) fun current _ => ?_
  split
  · exact .pure hrefl
  have hwrites {p : Dht Unit} (hp : Writes a.kind a.recordKey a.envelope p) :
      Leaves (providerFitting rt) D p (KeepsOwners rt D) := by
    refine .of_writes undisturbed_providerFitting hp fun D' hD' => ?_
    cases hkind : a.kind with
    | identity => exact keepsOwners_of_identity (hkind ▸ hD')
    | provider => exact keepsOwners_of_replaces (h hkind) (hkind ▸ hD')
  split
  · refine .bind (Φ := fun _ => True) hrefl (.lift fun _ _ => trivial) fun prior _ => ?_
    refine .bind hrefl ((durableHistory_quiet _ _).finds undisturbed_providerFitting)
      fun history _ => hwrites durableInstall_writes
  · split
    · exact hwrites durableInstall_writes
    · exact hwrites storePut_writes

theorem inboundPut_keepsOwners (hd : d.durableStore.isSome = true) (key value : Bytes)
    {s : DhtState} (hfits : ∀ text, decodeUtf8 key = .ok text → MemoryFits rt s text) :
    wp (providerFitting rt) (inboundPut rt d key value)
      (fun _ t => KeepsOwners rt s.durable t.durable) s := by
  have hrefl : KeepsOwners rt s.durable s.durable := keepsOwners_refl _
  refine wp_bind_of (prepareDurableAcceptance_keepsOwner hd key value hfits)
    (fun e t ht => ht.1 ▸ hrefl) fun accepted t ht => ?_
  have hcommit : Leaves (providerFitting rt) s.durable (do
      originalPut key value
      commitDurableAcceptance rt d accepted) (KeepsOwners rt s.durable) := by
    refine .bind hrefl (Quiet.finds (.modify fun _ => rfl) undisturbed_providerFitting)
      fun _ _ => commitDurableAcceptance_keepsOwners (ht.2 _ rfl)
  exact hcommit t ht.1

/-! ## Runs -/

/-- The calls that may write a Provider Record. -/
def IsProviderCall : DhtCall → Prop
  | .putProvider _ _ | .getProvider _ _ | .inboundPut _ _ => True
  | _ => False

/-- A value is put by a peer while the value in memory fits the head. -/
def InboundFits (rt : Runtime) (s : DhtState) : DhtCall → Prop
  | .inboundPut key _ => ∀ text, decodeUtf8 key = .ok text → MemoryFits rt s text
  | _ => True

/-- One call after another, with the calls and answers that are considered. -/
abbrev providerSchedule (rt : Runtime) (d : DhtInstance) (calls : DhtState → DhtCall → Prop)
    (answers : (q : Request) → DhtState → Py q.Answer → Prop) :
    Schedule DhtState Request Request.Answer PyError :=
  dhtSchedule rt d (fun s call => IsProviderCall call ∧ calls s call) answers

theorem providerCall_keepsOwners (hd : d.durableStore.isSome = true) {s : DhtState}
    {call : DhtCall} (hcall : IsProviderCall call) (hfits : InboundFits rt s call) :
    wp (providerFitting rt) (call.task rt d) (fun _ t => KeepsOwners rt s.durable t.durable) s := by
  cases call with
  | putProvider objectHash e => exact putSignedProviderRecord_keepsOwners hd _ _ s rfl
  | getProvider objectHash quorum =>
    exact Leaves.bind_quiet undisturbed_providerFitting
      (getSignedProviderRecord_keepsOwners hd objectHash quorum) (fun _ => .pure trivial) s rfl
  | inboundPut key value => exact inboundPut_keepsOwners hd key value hfits
  | putIdentity | putIdentityIfCurrent | getIdentityEnvelope | getIdentityRecord
  | confirmRotation => exact hcall.elim

/-- **The owner of a multisignature Provider is kept** in every run in which the DHT answers with
values that continue the head they displace, and the value in memory that a peer's value is
validated over is a multisignature one that does so. -/
theorem providerOwner_bound (hd : d.durableStore.isSome = true) {s t : DhtState}
    (h : Serial (providerSchedule rt d (InboundFits rt) (ProviderAnswerFits rt)) s t)
    {key L owner : Bytes} (hL : s.durable.get .provider key = some L)
    (howned : IsOwnedBy rt owner L) :
    ∃ L', t.durable.get .provider key = some L' ∧ IsOwnedBy rt owner L' := by
  refine (h.invariant (I := fun _ => True) (R := fun s t => KeepsOwners rt s.durable t.durable)
    (fun _ _ => keepsOwners_refl _) (fun _ _ _ => keepsOwners_trans) ?_ (fun s t _ hdrift => ?_)
    trivial).2 key L owner hL howned
  · rintro s _ - ⟨call, ⟨hcall, hfits⟩, rfl⟩
    exact wp_mono (providerCall_keepsOwners hd hcall hfits) fun _ _ h => ⟨trivial, h⟩
  · rw [show t.durable = s.durable from hdrift.1]
    exact ⟨trivial, keepsOwners_refl _⟩

namespace Sample

/-- Publishing an envelope of the sample Provider Record, and reading it. -/
def putProviderCall (e : Bytes) : DhtCall := .putProvider (toHex providerKey) e

def readProviderCall : DhtCall := .getProvider (toHex providerKey) 0

/-- The state after the genesis was put. -/
def providerGenesisPut : DhtState := after none (putProviderCall providerGenesis) (stateOver .empty)

theorem providerAnswerFits_none (q : Request) (s : DhtState) :
    ProviderAnswerFits runtime q s (answers none q s).1 := by
  cases q with
  | getValue => exact fun _ _ _ _ _ h => by cases h
  | _ => trivial

/-- An answer that continues the head it is given over fits every head. -/
theorem providerAnswerFits_answersOver {head value : Bytes}
    (h : ProviderContinues runtime recordKey head value) (q : Request) (s : DhtState) :
    ProviderAnswerFits runtime q s (answersOver .provider recordKey head value q s).1 := by
  unfold answersOver
  split
  · rename_i hreads
    obtain ⟨⟨quorum, rfl⟩, hhead⟩ := readsOver_inv hreads
    intro hash recordKey' hkad hkey e he L hL
    obtain rfl := recordKey_of_kadKey hkad (fromHex_toHex recordKey) hkey
    obtain rfl := Option.some.inj (hhead.symm.trans hL.head)
    obtain rfl := Option.some.inj he
    exact h
  · exact providerAnswerFits_none q s

theorem providerGenesis_isOwnedBy : IsOwnedBy runtime (publicKey 'a') providerGenesis :=
  ⟨by decide +kernel, by decide +kernel⟩

end Sample

/-- A genesis is put, and a read to which the DHT answers its withdrawal. -/
theorem answeredWithdrawal_isOwned :
    ∃ L', (Sample.afterAnswers (Sample.answersOver .provider Sample.providerKey
        Sample.providerGenesis Sample.providerWithdrawal) Sample.readProviderCall
        Sample.providerGenesisPut).durable.get .provider Sample.providerKey = some L' ∧
      L' = Sample.providerWithdrawal ∧
      IsOwnedBy Sample.runtime (Sample.publicKey 'a') L' := by
  obtain ⟨hgenesis, hread, hmultisignature, howner⟩ :
      Sample.providerGenesisPut.durable.get .provider Sample.providerKey =
        some Sample.providerGenesis ∧
      (Sample.afterAnswers (Sample.answersOver .provider Sample.providerKey
        Sample.providerGenesis Sample.providerWithdrawal) Sample.readProviderCall
        Sample.providerGenesisPut).durable.get .provider Sample.providerKey =
          some Sample.providerWithdrawal ∧
      isMultisignatureEnvelope Sample.runtime Sample.providerWithdrawal = true ∧
      envelopeOwner Sample.runtime .provider Sample.providerWithdrawal =
        envelopeOwner Sample.runtime .provider Sample.providerGenesis := by
    decide +kernel
  have hcontinues : ProviderContinues Sample.runtime Sample.providerKey Sample.providerGenesis
      Sample.providerWithdrawal :=
    ⟨fun _ _ => howner, fun h => by cases hmultisignature.symm.trans h⟩
  obtain ⟨L', hL', howned⟩ := providerOwner_bound (d := Sample.node) rfl
    (Sample.serial_afterAnswers (Sample.providerAnswerFits_answersOver hcontinues)
      (Sample.answered_answersOver _ _ _ _) Sample.readProviderCall _ ⟨trivial, trivial⟩)
    hgenesis Sample.providerGenesis_isOwnedBy
  exact ⟨L', hL', Option.some.inj (hL'.symm.trans hread), howned⟩

/-- **A hostile read.** A read to which the DHT answers a legacy Provider Record of another owner,
with a greater sequence number, replaces a multisignature head by it. -/
theorem hostileProvider_downgrades :
    ∃ s t owner, Serial (providerSchedule Sample.runtime Sample.node (fun _ _ => True)
        fun _ _ _ => True) (Sample.stateOver .empty) s ∧
      Serial (providerSchedule Sample.runtime Sample.node (fun _ _ => True) fun _ _ _ => True) s t ∧
      s.durable.get .provider Sample.providerKey = some Sample.providerGenesis ∧
      IsOwnedBy Sample.runtime owner Sample.providerGenesis ∧
      t.durable.get .provider Sample.providerKey = some Sample.foreignProvider ∧
      ¬ IsOwnedBy Sample.runtime owner Sample.foreignProvider := by
  obtain ⟨hput, hreplaced, hforeign⟩ :
      Sample.providerGenesisPut.durable.get .provider Sample.providerKey =
        some Sample.providerGenesis ∧
      (Sample.after (some Sample.foreignProvider) Sample.readProviderCall
        Sample.providerGenesisPut).durable.get .provider Sample.providerKey =
          some Sample.foreignProvider ∧
      isMultisignatureEnvelope Sample.runtime Sample.foreignProvider = false := by
    decide +kernel
  refine ⟨Sample.providerGenesisPut, _, Sample.publicKey 'a',
    Sample.serial_after (fun _ _ => trivial) _ _ ⟨trivial, trivial⟩,
    Sample.serial_after (fun _ _ => trivial) Sample.readProviderCall _ ⟨trivial, trivial⟩, hput,
    Sample.providerGenesis_isOwnedBy, hreplaced, fun h => ?_⟩
  rw [h.multisignature] at hforeign
  cases hforeign

end DecentRegistry
