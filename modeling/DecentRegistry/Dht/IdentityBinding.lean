import DecentRegistry.Authority.Lineage
import DecentRegistry.Dht.IdentityRead
import DecentRegistry.Dht.Keys
import DecentRegistry.Dht.Results
import DecentRegistry.Dht.Writes
import DecentRegistry.Sample.Dht

/-!
# The owner of an Identity in the durable store

A head binds the heads that come after it: a multisignature envelope stays one, and the owner stays
unless a rotation in the lineage changes it (`KeepsOwnerBinding`). Local writes and values put by
peers are validated over the head, and keep the binding. What a read brings from the DHT or from a
peer is validated by itself, and takes the place of the head when its sequence number is greater;
the binding is kept in the runs whose answers continue the head (`Continues`,
`identityOwner_bound`), and not in others (`hostileRead_downgrades`). -/

namespace DecentRegistry

open Fallible PyValue Coroutine Relation

variable {rt : Runtime} {d : DhtInstance} {recordKey : Bytes}

/-! ## Heads -/

/-- What an Identity head was validated as: a legacy Identity, or the end of a stepwise run. -/
def IdentityHead (rt : Runtime) (recordKey e : Bytes) : Prop :=
  (∃ legacy : LegacyState, legacy.Reads rt recordKey e ∧ legacy.recordKind = .identity) ∨
    ∃ l s, StepwiseRun rt recordKey (l ++ [e]) s

/-- One head is in the validated past of the other, and is not a multisignature envelope before a
legacy one. -/
structure Follows (rt : Runtime) (recordKey a b : Bytes) : Prop where
  multisignature : isMultisignatureEnvelope rt a = true → isMultisignatureEnvelope rt b = true
  lineage : Lineage rt recordKey a b

theorem Follows.refl (a : Bytes) : Follows rt recordKey a a := ⟨id, .refl⟩

theorem Follows.trans {a b c : Bytes} (h : Follows rt recordKey a b)
    (h' : Follows rt recordKey b c) : Follows rt recordKey a c :=
  ⟨fun ha => h'.multisignature (h.multisignature ha), h.lineage.trans h'.lineage⟩

theorem Succession.follows {a b : Bytes} (h : Succession rt recordKey a b)
    (ha : isMultisignatureEnvelope rt a = false) : Follows rt recordKey a b :=
  ⟨fun hne => by simp [ha] at hne, .single (.inr h)⟩

theorem LegacyState.Reads.not_multisignature {legacy : LegacyState} {e : Bytes}
    (h : legacy.Reads rt recordKey e) : isMultisignatureEnvelope rt e = false := by
  obtain ⟨_, hsigned, -⟩ := h.signed
  exact isMultisignatureEnvelope_of_legacy hsigned

theorem StepwiseRun.multisignature {l : List Bytes} {e : Bytes} {s : MultisignatureState}
    (run : StepwiseRun rt recordKey (l ++ [e]) s) : isMultisignatureEnvelope rt e = true := by
  obtain ⟨p, _, hp, -⟩ := run.reads
  exact isMultisignatureEnvelope_of_decode hp.envelope

namespace IdentityHead

variable {e : Bytes}

/-- A head that is not a multisignature envelope reads as a legacy Identity. -/
theorem legacy (h : IdentityHead rt recordKey e) (he : isMultisignatureEnvelope rt e = false) :
    ∃ legacy : LegacyState, legacy.Reads rt recordKey e ∧ legacy.recordKind = .identity := by
  rcases h with h | ⟨l, s, run⟩
  · exact h
  · rw [run.multisignature] at he
    cases he

theorem owner (h : IdentityHead rt recordKey e) :
    ∃ owner, envelopeOwner rt .identity e = .ok owner := by
  rcases h with ⟨legacy, hreads, hkind⟩ | ⟨l, s, run⟩
  · exact ⟨_, envelopeOwner_legacy hreads hkind⟩
  · obtain ⟨p, history, hp, hs⟩ := run.reads
    have howner := envelopeOwner_state hp hs
    rw [run.history.1] at howner
    exact ⟨_, howner⟩

theorem seq (h : IdentityHead rt recordKey e) : ∃ n, envelopeSeq rt e = .ok n := by
  rcases h with ⟨legacy, hreads, -⟩ | ⟨l, s, run⟩
  · exact ⟨_, hreads.isHead.seq⟩
  · obtain ⟨p, _, hp, -⟩ := run.reads
    exact ⟨_, hp.isHead.seq⟩

end IdentityHead

/-! ## Legacy heads -/

theorem extractIdentityPrevSeqState_legacy {legacy : LegacyState} {e : Bytes}
    (h : legacy.Reads rt recordKey e) (hkind : legacy.recordKind = .identity) :
    extractIdentityPrevSeqState rt e = some ⟨legacy.ownerPublicKey, legacy.seq⟩ := by
  obtain ⟨signature, hsigned, -⟩ := h.signed
  obtain ⟨_, -, howner, -⟩ := h.identity hkind
  simp [extractIdentityPrevSeqState, extractPrevSeqState, hsigned, h.update, howner, Value.asBytes?]

theorem envelopeSeq_of_extractIdentityPrevSeqState {e : Bytes} {entry : SeqStateEntry}
    (h : extractIdentityPrevSeqState rt e = some entry) : envelopeSeq rt e = .ok entry.seq := by
  unfold extractIdentityPrevSeqState extractPrevSeqState at h
  split at h
  · cases h
  · rename_i bytes signature hsigned
    split at h
    · cases h
    · rename_i u hu
      obtain ⟨owner, -, rfl⟩ := Option.map_eq_some_iff.1 h
      exact (isHead_of_update (envelopeSignedUpdateBytes_of_legacy hsigned) hu).seq

/-- A legacy Identity that may follow what the head and another envelope have in common. -/
theorem succession_of_mayFollow {legacy next : LegacyState} {L e : Bytes} {entry : SeqStateEntry}
    (hL : legacy.Reads rt recordKey L) (hkind : legacy.recordKind = .identity)
    (he : next.Reads rt recordKey e) (hnext : next.recordKind = .identity)
    (hentry : entry.ownerPublicKey = legacy.ownerPublicKey) (hseq : legacy.seq ≤ entry.seq)
    (h : MayFollow next.seq next.ownerPublicKey (some entry)) : Succession rt recordKey L e := by
  obtain ⟨hlt, howner⟩ := h entry rfl
  exact .legacy hL he hkind hnext (by omega) (howner.trans hentry)

/-! ## What continues a head -/

/-- An envelope of a chain that stands for the head, or is a legacy one that may follow it. -/
def Joins (rt : Runtime) (recordKey head x : Bytes) : Prop :=
  signedUpdateOf rt x = signedUpdateOf rt head ∨
    isMultisignatureEnvelope rt x = false ∧
      (validateIdentityOverwrite rt recordKey x (some head) none).isOk = true

/-- A value that continues a head: a multisignature envelope all of whose chains go through the
head, or a legacy envelope of the same owner. -/
structure Continues (rt : Runtime) (recordKey head e : Bytes) : Prop where
  accepted : isMultisignatureEnvelope rt e = true → ∀ chain s,
    validateMultisignatureHistory rt recordKey chain = .ok s → chain.getLast? = some e →
      ∃ x ∈ chain, Joins rt recordKey head x
  upgraded : isMultisignatureEnvelope rt e = false → isMultisignatureEnvelope rt head = true →
    (decodeLegacyState rt recordKey e).isOk = false
  sameOwner : isMultisignatureEnvelope rt e = false → isMultisignatureEnvelope rt head = false →
    ∃ a b, extractIdentityPrevSeqState rt head = some a ∧
      extractIdentityPrevSeqState rt e = some b ∧
      b.ownerPublicKey = a.ownerPublicKey

/-- A value that does not displace the head, or continues it. -/
def FitsHead (rt : Runtime) (recordKey : Bytes) (head : Option Bytes) (e : Bytes) : Prop :=
  ∀ L ∈ head, selectNewestEnvelope rt (some e) head = .ok (some e) → e ≠ L →
    Continues rt recordKey L e

/-! ## New heads -/

/-- What a value is that takes the place of a head. -/
structure Extends (rt : Runtime) (recordKey : Bytes) (head : Option Bytes) (e : Bytes) : Prop where
  isHead : IdentityHead rt recordKey e
  follows : ∀ L ∈ head, Follows rt recordKey L e

theorem lineage_of_joins {L x : Bytes} (hL : IdentityHead rt recordKey L)
    (h : Joins rt recordKey L x) : Lineage rt recordKey L x := by
  rcases h with hsame | ⟨hx, haccepted⟩
  · exact .single (.inl hsame)
  · have h := eq_ok_valueOf haccepted
    simp only [validateIdentityOverwrite, hx, Bool.false_eq_true, if_false, bind_eq_ok,
      raiseIf_eq_ok, Option.mem_def, Option.some.injEq, exists_eq_left', Bool.not_eq_true,
      validateLegacyIdentity_eq_ok] at h
    obtain ⟨-, hLegacy, next, _, hreads, hnext, -, hfollow, -⟩ := h
    obtain ⟨legacy, hlegacy, hkind⟩ := hL.legacy hLegacy
    simp only [seqStateOf, if_true, Option.bind_some,
      extractIdentityPrevSeqState_legacy hlegacy hkind] at hfollow
    exact .single (.inr (succession_of_mayFollow hlegacy hkind hreads hnext rfl le_rfl hfollow))

/-- A run through an envelope that continues the head leads from the head to its end. -/
theorem lineage_of_continues {L x e : Bytes} {chain l : List Bytes} {s t : MultisignatureState}
    (hL : IdentityHead rt recordKey L) (h : Continues rt recordKey L x)
    (hx : isMultisignatureEnvelope rt x = true)
    (hchain : validateMultisignatureHistory rt recordKey chain = .ok s)
    (hlast : chain.getLast? = some x) (run : StepwiseRun rt recordKey l t)
    (hsub : chain ⊆ l) (he : l.getLast? = some e) : Lineage rt recordKey L e := by
  obtain ⟨y, hy, hjoins⟩ := h.accepted hx chain s hchain hlast
  exact (lineage_of_joins hL hjoins).trans (lineage_of_run run (hsub hy) he)

/-- A legacy envelope that is newer than the head and continues it. -/
theorem succession_of_continues {L x : Bytes} {m n : ℕ} {next : LegacyState}
    (hL : IdentityHead rt recordKey L) (h : Continues rt recordKey L x)
    (hx : next.Reads rt recordKey x) (hnext : next.recordKind = .identity)
    (hn : envelopeSeq rt L = .ok n) (hm : envelopeSeq rt x = .ok m) (hlt : n < m) :
    isMultisignatureEnvelope rt L = false ∧ Succession rt recordKey L x := by
  have hLegacy : isMultisignatureEnvelope rt L = false := by
    by_contra hne
    have := h.upgraded hx.not_multisignature (by simpa using hne)
    rw [decodeLegacyState_eq_ok.2 hx] at this
    cases this
  obtain ⟨legacy, hlegacy, hkind⟩ := hL.legacy hLegacy
  obtain ⟨a, b, ha, hb, howner⟩ := h.sameOwner hx.not_multisignature hLegacy
  obtain rfl := Option.some.inj (ha.symm.trans (extractIdentityPrevSeqState_legacy hlegacy hkind))
  obtain rfl := Option.some.inj (hb.symm.trans (extractIdentityPrevSeqState_legacy hx hnext))
  obtain rfl := Except.ok.inj (hn.symm.trans hlegacy.isHead.seq)
  obtain rfl := Except.ok.inj (hm.symm.trans hx.isHead.seq)
  exact ⟨hLegacy, .legacy hlegacy hx hkind hnext hlt howner⟩

/-- **What `validate_identity_overwrite` accepts** over the newer of the head and a value that fits
it takes the place of the head, if it is a multisignature envelope. -/
theorem extends_of_multisignatureOverwrite {e : Bytes} {head dht existing : Option Bytes}
    {chain : Option (List Bytes)} {r : IdentityOverwriteResult}
    (hhead : ∀ L ∈ head, IdentityHead rt recordKey L)
    (hfits : ∀ x ∈ dht, FitsHead rt recordKey head x)
    (hselect : selectNewestEnvelope rt dht head = .ok existing)
    (he : isMultisignatureEnvelope rt e = true)
    (h : validateIdentityOverwrite rt recordKey e existing chain = .ok r) :
    Extends rt recordKey head e := by
  obtain ⟨l, s, run, hexisting⟩ := validateIdentityOverwrite_run he h
  refine ⟨.inr ⟨l, s, run⟩, ?_⟩
  rintro L ⟨⟩
  refine ⟨fun _ => he, ?_⟩
  have hpast {x : Bytes} (hlast : l.getLast? = some x) : Lineage rt recordKey x e :=
    lineage_of_run run (List.mem_append_left _ (List.mem_of_getLast? hlast)) (by simp)
  obtain ⟨n, hn⟩ := (hhead L rfl).seq
  rcases selectNewestEnvelope_head hn hselect with rfl | ⟨x, m, rfl, hne, rfl, hm, hlt⟩
  · exact hpast (hexisting L rfl).1
  obtain ⟨hlast, hx⟩ := hexisting x rfl
  have hcontinues := hfits x rfl L rfl hselect hne
  by_cases hmultisig : isMultisignatureEnvelope rt x = true
  · rw [if_pos hmultisig] at hx
    obtain ⟨t, ht⟩ := hx
    exact lineage_of_continues (hhead L rfl) hcontinues hmultisig ht hlast run
      (List.subset_append_left _ _) (by simp)
  · rw [if_neg hmultisig] at hx
    obtain ⟨next, hreads, hnext⟩ := hx
    obtain ⟨-, hsucc⟩ := succession_of_continues (hhead L rfl) hcontinues hreads hnext hn hm hlt
    exact .head (.inr hsucc) (hpast hlast)

/-- A legacy envelope accepted over the newer of a legacy head and a value that fits it. -/
theorem extends_of_legacyOverwrite {e : Bytes} {head dht existing : Option Bytes}
    {chain : Option (List Bytes)} {r : IdentityOverwriteResult}
    (hhead : ∀ L ∈ head, IdentityHead rt recordKey L)
    (hfits : ∀ x ∈ dht, FitsHead rt recordKey head x)
    (hselect : selectNewestEnvelope rt dht head = .ok existing)
    (he : isMultisignatureEnvelope rt e = false)
    (hlocal : ∀ L ∈ head, isMultisignatureEnvelope rt L = false ∧
      ∀ x ∈ dht, isMultisignatureEnvelope rt x = false)
    (h : validateIdentityOverwrite rt recordKey e existing chain = .ok r) :
    Extends rt recordKey head e := by
  simp only [validateIdentityOverwrite, he, Bool.false_eq_true, if_false, bind_eq_ok,
    validateLegacyIdentity_eq_ok] at h
  obtain ⟨-, -, next, _, hreads, hnext, -, hfollow, -⟩ := h
  refine ⟨.inl ⟨next, hreads, hnext⟩, fun L hL => ?_⟩
  obtain rfl : head = some L := hL
  obtain ⟨hLegacy, hdht⟩ := hlocal L rfl
  refine Succession.follows ?_ hLegacy
  obtain ⟨legacy, hlegacy, hkind⟩ := (hhead L rfl).legacy hLegacy
  have hentry := extractIdentityPrevSeqState_legacy hlegacy hkind
  simp only [seqStateOf, if_true] at hfollow
  rcases selectNewestEnvelope_head hlegacy.isHead.seq hselect with
    rfl | ⟨x, m, rfl, hne, rfl, hm, hlt⟩
  · rw [Option.bind_some, hentry] at hfollow
    exact succession_of_mayFollow hlegacy hkind hreads hnext rfl le_rfl hfollow
  · obtain ⟨a, b, ha, hb, howner⟩ :=
      (hfits x rfl L rfl hselect hne).sameOwner (hdht x rfl) hLegacy
    obtain rfl := Option.some.inj (ha.symm.trans hentry)
    rw [Option.bind_some, hb] at hfollow
    obtain rfl := Except.ok.inj (hm.symm.trans (envelopeSeq_of_extractIdentityPrevSeqState hb))
    exact succession_of_mayFollow hlegacy hkind hreads hnext howner hlt.le hfollow

/-- What `validate_identity_get` accepts of a value that fits the head takes the place of the head,
when it is the newer of the two. -/
theorem extends_of_get {e : Bytes} {head : Option Bytes} {chain : Option (List Bytes)}
    {r : IdentityRead} (hhead : ∀ L ∈ head, IdentityHead rt recordKey L)
    (hfits : FitsHead rt recordKey head e)
    (hselect : selectNewestEnvelope rt (some e) head = .ok (some e))
    (h : validateIdentityGet rt recordKey e chain = .ok r) : Extends rt recordKey head e := by
  by_cases he : isMultisignatureEnvelope rt e = true
  · obtain ⟨chain, hlast, -, s, hchain⟩ := validateIdentityGet_trusted h he
    obtain ⟨l, rfl⟩ := List.getLast?_eq_some_iff.1 hlast
    have run := stepwiseRun_of_history hchain
    refine ⟨.inr ⟨l, s, run⟩, fun L hL => ⟨fun _ => he, ?_⟩⟩
    obtain rfl : head = some L := hL
    by_cases hne : e = L
    · subst hne
      exact .refl
    · exact lineage_of_continues (hhead L rfl) (hfits L rfl hselect hne) he hchain hlast run
        (List.Subset.refl _) hlast
  · rw [Bool.not_eq_true] at he
    simp only [validateIdentityGet, he, Bool.false_eq_true, if_false, bind_eq_ok,
      validateLegacyIdentity_eq_ok] at h
    obtain ⟨_, ⟨next, _, hreads, hnext, -⟩, -⟩ := h
    refine ⟨.inl ⟨next, hreads, hnext⟩, fun L hL => ?_⟩
    obtain rfl : head = some L := hL
    obtain ⟨n, hn⟩ := (hhead L rfl).seq
    rcases selectNewestEnvelope_head hn hselect with heq | ⟨x, m, heq, hne, -, hm, hlt⟩
    · obtain rfl := Option.some.inj heq
      exact .refl e
    · obtain rfl := Option.some.inj heq
      obtain ⟨hL, hsucc⟩ := succession_of_continues (hhead L rfl) (hfits L rfl hselect hne) hreads
        hnext hn hm hlt
      exact hsucc.follows hL

/-! ## Answers -/

/-- What the DHT or a peer answers to the read of an Identity fits its head. -/
def AnswerFits (rt : Runtime) (q : Request) (s : DhtState) (r : Py q.Answer) : Prop :=
  match q, r with
  | .getValue key _, .ok (some e) => ∀ hex recordKey, key = kadKey hex .identity →
      fromHex hex = .ok recordKey → FitsHead rt recordKey (s.durable.get .identity recordKey) e
  | .peerEnvelope _ key, .ok (some e) => ∀ hex recordKey, key = kadKey hex .identity →
      fromHex hex = .ok recordKey → FitsHead rt recordKey (s.durable.get .identity recordKey) e
  | .readerEnvelope hex, .ok (some e) => ∀ recordKey, fromHex hex = .ok recordKey →
      FitsHead rt recordKey (s.durable.get .identity recordKey) e
  | _, _ => True

/-- The answers fit the heads, and leave the durable store alone. -/
def fitting (rt : Runtime) : Contract DhtState Request Request.Answer PyError :=
  ⟨fun q s r t => AnswerFits rt q s r ∧ Answered q s r t, fun _ _ => True⟩

theorem undisturbed_fitting : Undisturbed (fitting rt) :=
  ⟨fun _ _ _ _ h => h.2.sameDurable, fun _ _ => trivial⟩

variable {D : LMDBDatastore} {objectKeyHex : Text}

/-- A value that was read fits the head. -/
def Fits (rt : Runtime) (recordKey : Bytes) (D : LMDBDatastore) (x : Option Bytes) : Prop :=
  ∀ e ∈ x, FitsHead rt recordKey (D.get .identity recordKey) e

theorem fits_none : Fits rt recordKey D none := fun _ h => by cases h

section Reads

variable (hkey : fromHex objectKeyHex = .ok recordKey)

include hkey

theorem getValue_finds (quorum : ℕ) :
    Finds (fitting rt) D (Coro.request (Request.getValue (kadKey objectKeyHex .identity) quorum))
      (Fits rt recordKey D) := by
  refine .request undisturbed_fitting fun s x t hs h => ?_
  rintro e rfl
  exact hs ▸ h.1 _ _ rfl hkey

theorem readDhtValue_finds (quorum : ℕ) :
    Finds (fitting rt) D (readDhtValue (kadKey objectKeyHex .identity) quorum)
      (Fits rt recordKey D) :=
  .orOnException (getValue_finds hkey quorum) (.pure fits_none)

theorem readFromPeers_finds (peers : List Text) :
    Finds (fitting rt) D (readFromPeers d objectKeyHex peers) (Fits rt recordKey D) := by
  induction peers with
  | nil => exact .pure fits_none
  | cons peer rest ih =>
    unfold readFromPeers
    split
    · exact ih
    · refine .bind (Φ := Fits rt recordKey D) (.orOnException ?_ (.pure fits_none)) fun x hx => ?_
      · refine .request undisturbed_fitting fun s x t hs h => ?_
        rintro e rfl
        exact hs ▸ h.1 _ _ rfl hkey
      · split
        · exact .pure hx
        · exact ih

theorem readRemoteIdentityEnvelope_finds :
    Finds (fitting rt) D (readRemoteIdentityEnvelope d objectKeyHex) (Fits rt recordKey D) := by
  refine .bind (.lift fun _ h => rewrap_eq_ok.1 h) fun key hkey' => ?_
  obtain rfl := Except.ok.inj (hkey.symm.trans hkey')
  refine .bind (Φ := fun _ => True) (.lift fun _ _ => trivial) fun _ _ => ?_
  split
  · refine .orOnException (.request undisturbed_fitting fun s x t hs h => ?_) (.pure fits_none)
    rintro e rfl
    exact hs ▸ h.1 _ (fromHex_toHex _)
  · exact .bind (quiet_reads.finds undisturbed_fitting) fun peers _ =>
      readFromPeers_finds (fromHex_toHex _) peers

theorem readIdentityForPut_finds (condition : Option PublicationCondition) :
    Finds (fitting rt) D (readIdentityForPut d objectKeyHex condition) (Fits rt recordKey D) := by
  unfold readIdentityForPut
  split
  · exact .orOnException (getValue_finds hkey 0) .raise
  · refine .bind (readDhtValue_finds hkey 0) fun x hx => ?_
    split
    · exact .pure hx
    · refine .bind (quiet_reads.finds undisturbed_fitting) fun peers _ => ?_
      split
      · exact .pure fits_none
      · exact readRemoteIdentityEnvelope_finds hkey

theorem readIdentityForGet_finds (quorum : ℕ) :
    Finds (fitting rt) D (readIdentityForGet d objectKeyHex quorum) (Fits rt recordKey D) := by
  refine .bind (readDhtValue_finds hkey quorum) fun x hx => ?_
  split
  · exact .pure hx
  · refine .bind (quiet_reads.finds undisturbed_fitting) fun peers _ => ?_
    split
    · exact .pure fits_none
    · exact readRemoteIdentityEnvelope_finds hkey

end Reads

/-! ## One call -/

/-- Every Identity head was validated. -/
def ValidHeads (rt : Runtime) (D : LMDBDatastore) : Prop :=
  ∀ key e, D.get .identity key = some e → IdentityHead rt key e

/-- Every head of the one store is followed by one of the other. -/
def HeadsFollow (rt : Runtime) (D D' : LMDBDatastore) : Prop :=
  ∀ key e, D.get .identity key = some e →
    ∃ e', D'.get .identity key = some e' ∧ Follows rt key e e'

/-- What a call over `D` ends in. -/
def BoundAfter (rt : Runtime) (D D' : LMDBDatastore) : Prop :=
  ValidHeads rt D' ∧ HeadsFollow rt D D'

theorem headsFollow_refl (D : LMDBDatastore) : HeadsFollow rt D D :=
  fun _ e h => ⟨e, h, .refl e⟩

theorem headsFollow_trans {D D' D'' : LMDBDatastore} (h : HeadsFollow rt D D')
    (h' : HeadsFollow rt D' D'') : HeadsFollow rt D D'' := by
  intro key e he
  obtain ⟨e', he', hfollows⟩ := h key e he
  obtain ⟨e'', he'', hfollows'⟩ := h' key e' he'
  exact ⟨e'', he'', hfollows.trans hfollows'⟩

/-- **One write** of what extends the head. -/
theorem boundAfter_of_replaces {e : Bytes} {D' : LMDBDatastore} (hD : ValidHeads rt D)
    (he : Extends rt recordKey (D.get .identity recordKey) e)
    (h : Replaces .identity recordKey e D D') : BoundAfter rt D D' := by
  refine ⟨fun key x hx => ?_, fun key x hx => ?_⟩
  · rcases h .identity key with hsame | ⟨-, rfl, hnew⟩
    · exact hD key x (hsame ▸ hx)
    · obtain rfl := Option.some.inj (hnew.symm.trans hx)
      exact he.isHead
  · rcases h .identity key with hsame | ⟨-, rfl, hnew⟩
    · exact ⟨x, hsame ▸ hx, .refl x⟩
    · exact ⟨e, hnew, he.follows x hx⟩

/-- A write of a Provider Record. -/
theorem boundAfter_of_provider {e : Bytes} {D' : LMDBDatastore} (hD : ValidHeads rt D)
    (h : Replaces .provider recordKey e D D') : BoundAfter rt D D' := by
  have hsame (key : Bytes) : D'.get .identity key = D.get .identity key := by
    rcases h .identity key with hsame | ⟨hkind, -⟩
    · exact hsame
    · cases hkind
  exact ⟨fun key x hx => hD key x (hsame key ▸ hx), fun key x hx => ⟨x, by rw [hsame, hx], .refl x⟩⟩

section Calls

variable (hd : d.durableStore.isSome = true) (hD : ValidHeads rt D)

include hD

theorem boundAfter_refl : BoundAfter rt D D := ⟨hD, headsFollow_refl D⟩

theorem durableInstall_leaves {e : Bytes} {result : ResultAttributes}
    {history : Option (List Bytes)} (he : Extends rt recordKey (D.get .identity recordKey) e) :
    Leaves (fitting rt) D (durableInstall rt d .identity recordKey e result history)
      (BoundAfter rt D) :=
  .of_writes undisturbed_fitting durableInstall_writes fun _ => boundAfter_of_replaces hD he

theorem durableCache_leaves {e : Bytes} {result : ResultAttributes}
    {history : Option (List Bytes)} (he : Extends rt recordKey (D.get .identity recordKey) e) :
    Leaves (fitting rt) D (durableCache rt d .identity recordKey e result history)
      (BoundAfter rt D) :=
  .of_writes undisturbed_fitting durableCache_writes fun _ => boundAfter_of_replaces hD he

theorem putLegacyIdentity_leaves {e : Bytes} {dht existing : Option Bytes}
    (hfits : Fits rt recordKey D dht)
    (hselect : selectNewestEnvelope rt dht (D.get .identity recordKey) = .ok existing)
    (hlegacy : (isMultisignatureEnvelope rt e || isMultisignatureValue rt dht ||
      isMultisignatureValue rt (D.get .identity recordKey)) = false)
    (condition : Option PublicationCondition) :
    Leaves (fitting rt) D (putLegacyIdentity rt d objectKeyHex recordKey e existing condition)
      (BoundAfter rt D) := by
  have hrefl := boundAfter_refl hD
  simp only [Bool.or_eq_false_iff, isMultisignatureValue, Option.any_eq_false]
    at hlegacy
  obtain ⟨⟨he, hdht⟩, hlocal⟩ := hlegacy
  refine .bind hrefl (.lift fun _ h => h) fun result hresult => ?_
  refine .bind hrefl ((checkNotExpired_quiet _).finds undisturbed_fitting) fun _ _ => ?_
  refine .bind hrefl ((publishDhtValue_quiet _ _ _).finds undisturbed_fitting) fun _ _ => ?_
  exact durableInstall_leaves hD (extends_of_legacyOverwrite (fun L hL => hD _ L hL) hfits hselect
    he (fun L hL => ⟨hlocal L hL, hdht⟩) hresult)

theorem putAcceptedIdentity_leaves {e : Bytes} {dht existing : Option Bytes}
    (hfits : Fits rt recordKey D dht)
    (hselect : selectNewestEnvelope rt dht (D.get .identity recordKey) = .ok existing)
    (condition : Option PublicationCondition) :
    Leaves (fitting rt) D (putAcceptedIdentity rt d objectKeyHex recordKey e existing condition)
      (BoundAfter rt D) := by
  have hrefl := boundAfter_refl hD
  refine .bind hrefl ((predecessorChainForPut_quiet _ _ _).finds undisturbed_fitting)
    fun chain _ => ?_
  refine .bind hrefl (.lift fun _ h => h) fun result hresult => ?_
  have hinstall (he : isMultisignatureEnvelope rt e = true) : Leaves (fitting rt) D
      (durableInstall rt d .identity recordKey e result.attributes none) (BoundAfter rt D) :=
    durableInstall_leaves hD (extends_of_multisignatureOverwrite (fun L hL => hD _ L hL) hfits
      hselect he hresult)
  refine .when hrefl (fun _ => .lift fun _ _ => trivial) fun _ => ?_
  refine .bind hrefl ((checkNotExpired_quiet _).finds undisturbed_fitting) fun _ _ => ?_
  have hpublish (context : Option IdentityWriteContext) : Finds (fitting rt) D
      (publishDhtValue (kadKey objectKeyHex .identity) e context) fun _ => True :=
    (publishDhtValue_quiet _ _ _).finds undisturbed_fitting
  split
  · refine .bind hrefl (hpublish _) fun _ _ => ?_
    split
    · exact hinstall ‹_›
    · exact .pure hrefl
  · split
    · rename_i h
      exact .bind_quiet undisturbed_fitting (hinstall h.1) fun _ => publishDhtValue_quiet _ _ _
    · exact .of_finds hrefl (hpublish _)

include hd

theorem putIdentityRecord_leaves (objectKeyHex : Text) (e : Bytes)
    (condition : Option PublicationCondition) :
    Leaves (fitting rt) D (putIdentityRecord rt d objectKeyHex e condition) (BoundAfter rt D) := by
  have hrefl := boundAfter_refl hD
  refine .bind hrefl (.lift fun _ h => h) fun recordKey hkey => ?_
  refine .withAcceptedLock undisturbed_fitting hrefl ?_
  refine .bind hrefl (readIdentityForPut_finds hkey condition) fun dht hfits => ?_
  refine .bind hrefl (.durableGet undisturbed_fitting hd _ _) ?_
  rintro _ rfl
  refine .bind hrefl (.lift fun _ h => h) fun existing hselect => ?_
  replace hselect := rewrap_eq_ok.1 hselect
  refine .bind (Φ := fun _ => True) hrefl (.lift fun _ _ => trivial) fun _ _ => ?_
  refine .bind hrefl ((requireServableHistory_quiet _ _).finds undisturbed_fitting) fun _ _ => ?_
  split
  · rename_i hlegacy
    rw [Bool.not_eq_true'] at hlegacy
    exact putLegacyIdentity_leaves hD hfits hselect hlegacy condition
  · exact putAcceptedIdentity_leaves hD hfits hselect condition

theorem getValidatedIdentityEnvelope_leaves (objectKeyHex : Text) (quorum : ℕ) :
    Leaves (fitting rt) D (getValidatedIdentityEnvelope rt d objectKeyHex quorum)
      (BoundAfter rt D) := by
  have hrefl := boundAfter_refl hD
  refine .withAcceptedLock undisturbed_fitting hrefl ?_
  refine .bind hrefl (.lift fun _ h => h) fun recordKey hkey => ?_
  refine .bind hrefl (readIdentityForGet_finds hkey quorum) fun dht hfits => ?_
  refine .bind hrefl (.durableGet undisturbed_fitting hd _ _) ?_
  rintro _ rfl
  split
  · exact .pure hrefl
  · exact .pure hrefl
  rename_i current hselect
  refine .bind hrefl ((durableHistory_quiet _ _).finds undisturbed_fitting) fun history _ => ?_
  refine .bind hrefl ((validateCurrentIdentity_quiet _ _ _ _).finds undisturbed_fitting)
    fun validated hvalidated => ?_
  split
  · exact .pure hrefl
  rename_i result chain
  have hresult := hvalidated result chain rfl
  dsimp only
  split
  · rename_i hdht
    subst hdht
    exact .bind_quiet undisturbed_fitting (durableCache_leaves hD
      (extends_of_get (fun L hL => hD _ L hL) (hfits current rfl) hselect hresult))
      fun _ => .pure trivial
  · exact .pure hrefl

omit hD in
/-- Of a record that has a head, the hooked `get` serves the head or nothing. -/
theorem valueStoreGet_finds {key : Text} {L : Bytes}
    (hparse : parseKey key = .ok (.identity, recordKey))
    (hL : D.get .identity recordKey = some L) :
    Finds (fitting rt) D (valueStoreGet rt d (utf8 key)) fun x => ∀ e ∈ x, e = L := by
  obtain ⟨hash, rfl, -⟩ := parseKey_eq_ok.1 hparse
  obtain ⟨_, hhistory⟩ := parseIdentityHistoryKey_kadKey hash .identity
  simp only [valueStoreGet, hhistory, decodeUtf8_utf8, ok_bind, hparse]
  refine .bind (.durableGet undisturbed_fitting hd _ _) ?_
  rintro _ rfl
  rw [hL]
  refine .bind ((durableHistory_quiet _ _).finds undisturbed_fitting) fun history _ => ?_
  split
  · exact .pure (by simp)
  · rintro s rfl
    refine wp_bind.2 (wp_reads.2 ⟨trivial, ?_⟩)
    dsimp only
    split
    · rename_i hcached
      refine ⟨rfl, ?_⟩
      rintro _ ⟨⟩ _ h
      rw [hcached] at h
      exact (Option.some.inj h).symm
    · refine wp_bind.2 (wp_modify.2 ⟨trivial, wp_reads.2 ⟨trivial, rfl, ?_⟩⟩)
      rintro _ ⟨⟩ _ h
      simpa using h.symm

/-- What a peer's Identity is prepared as. -/
def PreparedOver (rt : Runtime) (D : LMDBDatastore) (a : PreparedAcceptance) : Prop :=
  a.result.Validated rt a.kind a.recordKey a.envelope ∧
    (a.kind = .identity → Extends rt a.recordKey (D.get .identity a.recordKey) a.envelope)

/-- A peer's Identity is validated over the head. -/
theorem validateDhtRecord_finds {key : Text} {e : Bytes}
    (hparse : parseKey key = .ok (.identity, recordKey)) :
    Finds (fitting rt) D (validateDhtRecord rt d none key e) fun x =>
      ∀ result ∈ x, Extends rt recordKey (D.get .identity recordKey) e := by
  refine .bind (.lift fun _ h => h) ?_
  rintro ⟨kind, recordKey'⟩ hparse'
  obtain ⟨rfl, rfl⟩ := Prod.mk.inj (Except.ok.inj (hparse.symm.trans hparse'))
  dsimp only
  rw [if_pos rfl]
  refine .bind ((requireServableHistory_quiet _ _).finds undisturbed_fitting) fun _ _ => ?_
  have hserved : Finds (fitting rt) D (valueStoreGet rt d (utf8 key))
      fun x => ∀ L ∈ D.get .identity recordKey, ∀ e ∈ x, e = L := by
    cases hL : D.get .identity recordKey with
    | none =>
      exact ((valueStoreGet_quiet _).finds undisturbed_fitting).mono fun _ _ _ h => by cases h
    | some L =>
      refine (valueStoreGet_finds hd hparse hL).mono fun x hx L' hL' => ?_
      obtain rfl := Option.some.inj hL'
      exact hx
  refine .bind hserved fun dht hdht => ?_
  refine .bind (.durableGet undisturbed_fitting hd _ _) ?_
  rintro _ rfl
  refine .bind (.lift fun _ h => h) fun existing hselect => ?_
  simp only [existingForRecord, true_or, if_true] at hselect
  have hfits : Fits rt recordKey D dht := fun x hx L hL _ hne => absurd (hdht L hL x hx) hne
  split
  · exact .pure (by simp)
  refine .bind (Φ := fun _ => Extends rt recordKey (D.get .identity recordKey) e) ?_
    fun result hresult => .pure fun _ _ => hresult
  unfold validateOverExisting
  refine .bind ((durableHistory_quiet _ _).finds undisturbed_fitting) fun history _ => ?_
  refine .bind (.lift fun _ h => h) fun r hr => .pure ?_
  by_cases he : isMultisignatureEnvelope rt e = true
  · exact extends_of_multisignatureOverwrite (fun L hL => hD _ L hL) hfits hselect he hr
  · rw [Bool.not_eq_true] at he
    refine extends_of_legacyOverwrite (fun L hL => hD _ L hL) hfits hselect he (fun L hL => ?_) hr
    obtain rfl : existing = some L := by
      rw [hL] at hselect
      obtain ⟨n, hn⟩ := (hD _ L hL).seq
      rcases selectNewestEnvelope_head hn hselect with h | ⟨x, -, -, hne, hx, -⟩
      · exact h
      · exact absurd (hdht L hL x hx) hne
    have hLegacy := not_multisignature_of_legacyOverwrite he hr L rfl
    exact ⟨hLegacy, fun x hx => hdht L hL x hx ▸ hLegacy⟩

theorem prepareDurableAcceptance_finds (key value : Bytes) :
    Finds (fitting rt) D (prepareDurableAcceptance rt d false none key value)
      fun x => ∀ a ∈ x, PreparedOver rt D a := by
  unfold prepareDurableAcceptance
  split
  · exact .pure (by simp)
  split
  · exact .pure (by simp)
  rename_i kind recordKey hparse
  simp only [bind_eq_ok, pure_eq_ok, Prod.mk.injEq] at hparse
  obtain ⟨text, -, _, hparse, rfl, rfl⟩ := hparse
  have hquiet : Quiet (validateDhtRecord rt d none text value) _ := validateDhtRecord_quiet _ _ _
  have hvalidated : Finds (fitting rt) D (validateDhtRecord rt d none text value) _ :=
    hquiet.finds undisturbed_fitting
  have hextends : Finds (fitting rt) D (validateDhtRecord rt d none text value) fun x =>
      ∀ result ∈ x, kind = .identity → Extends rt recordKey (D.get .identity recordKey) value := by
    cases kind with
    | identity =>
      exact (validateDhtRecord_finds hd hD hparse).mono fun x hx result hr _ => hx result hr
    | provider => exact hvalidated.mono fun _ _ _ _ h => by cases h
  refine .bind (hvalidated.and hextends) ?_
  rintro (_ | result) ⟨hx, hx'⟩
  · exact .pure (by simp)
  · refine .pure ?_
    rintro _ ⟨⟩
    exact ⟨hx _ _ hparse _ rfl, hx' _ rfl⟩

omit hd in
theorem commitDurableAcceptance_leaves {accepted : Option PreparedAcceptance}
    (h : ∀ a ∈ accepted, PreparedOver rt D a) :
    Leaves (fitting rt) D (commitDurableAcceptance rt d accepted) (BoundAfter rt D) := by
  have hrefl := boundAfter_refl hD
  unfold commitDurableAcceptance
  split
  · exact .pure hrefl
  rename_i a
  obtain ⟨hresult, hextends⟩ := h a rfl
  split
  · exact .pure hrefl
  refine .bind hrefl ((durableGet_quiet _ _).finds undisturbed_fitting) fun current _ => ?_
  split
  · exact .pure hrefl
  obtain ⟨kind, recordKey, e, result⟩ := a
  have hprovider {p : Dht Unit} (hp : Writes .provider recordKey e p) :
      Leaves (fitting rt) D p (BoundAfter rt D) :=
    .of_writes undisturbed_fitting hp fun _ => boundAfter_of_provider hD
  rcases result with r | (r | r)
  · obtain ⟨rfl, -⟩ := hresult
    dsimp only
    rw [if_pos (.inl rfl)]
    exact durableInstall_leaves hD (hextends rfl)
  · obtain ⟨rfl, -⟩ := hresult
    dsimp only
    split
    · exact hprovider durableInstall_writes
    · exact hprovider storePut_writes
  · obtain ⟨rfl, -⟩ := hresult
    refine .bind (Φ := fun _ => True) hrefl (.lift fun _ _ => trivial) fun prior _ => ?_
    refine .bind hrefl ((durableHistory_quiet _ _).finds undisturbed_fitting) fun history _ => ?_
    exact hprovider durableInstall_writes

theorem inboundPut_leaves (key value : Bytes) :
    Leaves (fitting rt) D (inboundPut rt d key value) (BoundAfter rt D) := by
  have hrefl := boundAfter_refl hD
  refine .bind hrefl (prepareDurableAcceptance_finds hd hD key value) fun accepted haccepted => ?_
  refine .bind hrefl (Quiet.finds (.modify fun _ => rfl) undisturbed_fitting) fun _ _ => ?_
  exact commitDurableAcceptance_leaves hD haccepted

end Calls

/-! ## Runs -/

/-- The calls that publish an Identity, read it, or take it from a peer. The confirmation of a
rotation (`confirmRotation`) is none of them. -/
def IsIdentityCall : DhtCall → Prop
  | .putIdentity _ _ | .putIdentityIfCurrent _ _ _ _ | .getIdentityEnvelope _ _
  | .getIdentityRecord _ _ | .inboundPut _ _ => True
  | .confirmRotation _ _ | .putProvider _ _ | .getProvider _ _ => False

/-- One call after another, with the answers that are considered. -/
abbrev identitySchedule (rt : Runtime) (d : DhtInstance)
    (answers : (q : Request) → DhtState → Py q.Answer → Prop) :
    Schedule DhtState Request Request.Answer PyError :=
  dhtSchedule rt d (fun _ call => IsIdentityCall call) answers

theorem identityCall_leaves (hd : d.durableStore.isSome = true) (hD : ValidHeads rt D)
    {call : DhtCall} (hcall : IsIdentityCall call) :
    Leaves (fitting rt) D (call.task rt d) (BoundAfter rt D) := by
  have hread {α : Type} {p : Dht α} (hp : Leaves (fitting rt) D p (BoundAfter rt D)) :
      Leaves (fitting rt) D (do let _ ← p) (BoundAfter rt D) :=
    .bind_quiet undisturbed_fitting hp fun _ => .pure trivial
  cases call with
  | putIdentity objectKeyHex e => exact putIdentityRecord_leaves hd hD _ _ _
  | putIdentityIfCurrent objectKeyHex e expected expiresAt =>
    have hrefl := boundAfter_refl hD
    refine .bind (Φ := fun _ => True) hrefl (.lift fun _ _ => trivial) fun expected _ => ?_
    refine .bind (Φ := fun _ => True) hrefl (.lift fun _ _ => trivial) fun _ _ => ?_
    exact putIdentityRecord_leaves hd hD _ _ _
  | getIdentityEnvelope objectKeyHex quorum =>
    exact hread (.bind_quiet undisturbed_fitting (getValidatedIdentityEnvelope_leaves hd hD _ _)
      fun _ => .pure trivial)
  | getIdentityRecord objectKeyHex quorum =>
    exact hread (.bind_quiet undisturbed_fitting (getValidatedIdentityEnvelope_leaves hd hD _ _)
      fun _ => .pure trivial)
  | inboundPut key value => exact inboundPut_leaves hd hD _ _
  | confirmRotation | putProvider | getProvider => exact hcall.elim

/-- The heads of a run are valid, and the earlier ones are followed by the later. -/
theorem identityRun_bound (hd : d.durableStore.isSome = true) {s t : DhtState}
    (h : Serial (identitySchedule rt d (AnswerFits rt)) s t) (hs : ValidHeads rt s.durable) :
    ValidHeads rt t.durable ∧ HeadsFollow rt s.durable t.durable := by
  refine h.invariant (I := fun s => ValidHeads rt s.durable)
    (R := fun s t => HeadsFollow rt s.durable t.durable) (fun s _ => headsFollow_refl _)
    (fun _ _ _ => headsFollow_trans) ?_ (fun s t hs hdrift => ?_) hs
  · rintro s _ hs ⟨call, hcall, rfl⟩
    exact identityCall_leaves hd hs hcall s rfl
  · rw [show t.durable = s.durable from hdrift.1]
    exact ⟨hs, headsFollow_refl _⟩

/-- What a head demands of a later one. -/
structure KeepsOwnerBinding (rt : Runtime) (recordKey a b : Bytes) : Prop where
  multisignature : isMultisignatureEnvelope rt a = true → isMultisignatureEnvelope rt b = true
  owner : (∃ owner, envelopeOwner rt .identity a = .ok owner ∧
      envelopeOwner rt .identity b = .ok owner) ∨ RotatedSince rt recordKey a b

/-- **The owner of an Identity is bound** in every run in which the DHT and the peers answer with
values that continue the head they displace. -/
theorem identityOwner_bound (hd : d.durableStore.isSome = true) {r s t : DhtState}
    (hempty : r.durable = .empty) (hs : Serial (identitySchedule rt d (AnswerFits rt)) r s)
    (ht : Serial (identitySchedule rt d (AnswerFits rt)) s t) {key a b : Bytes}
    (ha : s.durable.get .identity key = some a) (hb : t.durable.get .identity key = some b) :
    KeepsOwnerBinding rt key a b := by
  have hvalid : ValidHeads rt s.durable :=
    (identityRun_bound hd hs (by rw [hempty]; intro _ _ h; cases h)).1
  obtain ⟨b', hb', hfollows⟩ := (identityRun_bound hd ht hvalid).2 key a ha
  obtain rfl := Option.some.inj (hb.symm.trans hb')
  obtain ⟨owner, howner⟩ := (hvalid key a ha).owner
  exact ⟨hfollows.multisignature, (hfollows.lineage.owner howner).imp_left fun h =>
    ⟨owner, howner, h⟩⟩

namespace Sample

/-- An answer that there is no value fits every head. -/
theorem answerFits_none (q : Request) (s : DhtState) :
    AnswerFits runtime q s (answers none q s).1 := by
  cases q <;> trivial

/-- An answer that continues the head it is given over fits every head. -/
theorem answerFits_answersOver {head value : Bytes} (h : Continues runtime recordKey head value)
    (q : Request) (s : DhtState) :
    AnswerFits runtime q s (answersOver .identity recordKey head value q s).1 := by
  unfold answersOver
  split
  · rename_i hreads
    obtain ⟨⟨quorum, rfl⟩, hhead⟩ := readsOver_inv hreads
    intro hex recordKey' hkad hkey L hL _ _
    obtain rfl := recordKey_of_kadKey hkad (fromHex_toHex recordKey) hkey
    obtain rfl := Option.some.inj (hhead.symm.trans hL)
    exact h
  · exact answerFits_none q s

/-- Publishing an envelope of the sample Identity, and reading it. -/
def putCall (e : Bytes) : DhtCall := .putIdentity (toHex identityKey) e

def readCall : DhtCall := .getIdentityRecord (toHex identityKey) 0

/-- The state after the legacy Identity was put. -/
def legacyPut : DhtState := after none (putCall legacyIdentity) (stateOver .empty)

/-- The state after the DHT was read, which had the genesis. -/
def genesisRead : DhtState := after (some identityGenesis) readCall (stateOver .empty)

end Sample

/-- A legacy Identity is put, and a read to which the DHT answers the next one of the same owner. -/
theorem laterIdentity_keepsOwnerBinding :
    KeepsOwnerBinding Sample.runtime Sample.identityKey Sample.legacyIdentity
      Sample.laterIdentity := by
  obtain ⟨hlegacy, hlater, hnot, howner⟩ :
      Sample.legacyPut.durable.get .identity Sample.identityKey = some Sample.legacyIdentity ∧
      (Sample.afterAnswers (Sample.answersOver .identity Sample.identityKey Sample.legacyIdentity
        Sample.laterIdentity) Sample.readCall Sample.legacyPut).durable.get .identity
        Sample.identityKey = some Sample.laterIdentity ∧
      isMultisignatureEnvelope Sample.runtime Sample.laterIdentity = false ∧
      isMultisignatureEnvelope Sample.runtime Sample.legacyIdentity = false := by
    decide +kernel
  have hcontinues : Continues Sample.runtime Sample.identityKey Sample.legacyIdentity
      Sample.laterIdentity := by
    refine ⟨fun h => ?_, fun _ h => ?_, fun _ _ => ?_⟩
    · cases hnot.symm.trans h
    · cases howner.symm.trans h
    · exact ⟨⟨Sample.publicKey 'a', 1⟩, ⟨Sample.publicKey 'a', 2⟩, by decide +kernel,
        by decide +kernel, rfl⟩
  exact identityOwner_bound (d := Sample.node) rfl (r := Sample.stateOver .empty)
    (s := Sample.legacyPut) rfl (Sample.serial_after Sample.answerFits_none _ _ trivial)
    (Sample.serial_afterAnswers (Sample.answerFits_answersOver hcontinues)
      (Sample.answered_answersOver _ _ _ _) Sample.readCall _ trivial) hlegacy hlater

/-- **A hostile read.** A read to which the DHT answers a legacy Identity of another owner, with a
greater sequence number, replaces a multisignature head by it. -/
theorem hostileRead_downgrades :
    ∃ s t, Serial (identitySchedule Sample.runtime Sample.node fun _ _ _ => True)
        (Sample.stateOver .empty) s ∧
      Serial (identitySchedule Sample.runtime Sample.node fun _ _ _ => True) s t ∧
      s.durable.get .identity Sample.identityKey = some Sample.identityGenesis ∧
      t.durable.get .identity Sample.identityKey = some Sample.foreignIdentity ∧
      ¬ KeepsOwnerBinding Sample.runtime Sample.identityKey Sample.identityGenesis
        Sample.foreignIdentity := by
  obtain ⟨hread, hreplaced, hgenesis, hforeign⟩ :
      Sample.genesisRead.durable.get .identity Sample.identityKey = some Sample.identityGenesis ∧
      (Sample.after (some Sample.foreignIdentity) Sample.readCall
        Sample.genesisRead).durable.get .identity Sample.identityKey =
          some Sample.foreignIdentity ∧
      isMultisignatureEnvelope Sample.runtime Sample.identityGenesis = true ∧
      isMultisignatureEnvelope Sample.runtime Sample.foreignIdentity = false := by
    decide +kernel
  refine ⟨Sample.genesisRead, _, Sample.serial_after (fun _ _ => trivial) _ _ trivial,
    Sample.serial_after (fun _ _ => trivial) Sample.readCall _ trivial, hread, hreplaced,
    fun h => ?_⟩
  rw [h.multisignature hgenesis] at hforeign
  cases hforeign

end DecentRegistry
