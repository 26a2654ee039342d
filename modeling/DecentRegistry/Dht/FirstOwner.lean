import DecentRegistry.Dht.Replication
import DecentRegistry.Model.Service
import DecentRegistry.Wire.BuiltEnvelopes

/-!
# The service as a register with owners

Legacy Identities that are published and read through the service of one instance. What the instance
stores is what a register with owners holds of what was published (`Represents`): a publication is
taken exactly if it is the first under its name, or a later one of the first owner, and a read
returns the latest record of the first owner (`identityService_first_owner`). -/

namespace DecentRegistry

open Fallible PyValue Coroutine LMDBDatastore OwnedRegister

variable {rt : Runtime} {keys : KeyStore} {d : DhtInstance} {env : Environment} {s t : DhtState}
  {recordKey e : Bytes} {objectKeyHex : Text} {D : LMDBDatastore} {entry : IdentityEntry}
  {r : Bytes → Option IdentityEntry}

/-! ## What is stored -/

/-- A head that says what the register holds. -/
def HeadReads (rt : Runtime) (recordKey : Bytes) (head : Option Bytes) :
    Option IdentityEntry → Prop
  | none => head = none
  | some entry => ∃ e, head = some e ∧ IdentityEntry.Reads rt recordKey e entry

/-- The store has a legacy Identity for every entry of the register, with its metadata. -/
structure Represents (rt : Runtime) (D : LMDBDatastore) (r : Bytes → Option IdentityEntry) :
    Prop where
  head : ∀ recordKey, HeadReads rt recordKey (D.get .identity recordKey) (r recordKey)
  recorded : RecordsHeads rt D
  unrecorded : ∀ recordKey, D.get .identity recordKey = none → D.metadata .identity recordKey = none

theorem IdentityEntry.Reads.isHead (h : IdentityEntry.Reads rt recordKey e entry) :
    ∃ b, IsHead rt e entry.seq b := by
  obtain ⟨legacy, hreads, -, -, hseq, -⟩ := h
  exact ⟨_, hseq ▸ hreads.isHead⟩

theorem IdentityEntry.Reads.not_multisignature (h : IdentityEntry.Reads rt recordKey e entry) :
    isMultisignatureEnvelope rt e = false := by
  obtain ⟨legacy, hreads, -⟩ := h
  exact hreads.not_multisignature

theorem HeadReads.exists_entry {head : Option Bytes} {h : Option IdentityEntry}
    (hhead : HeadReads rt recordKey head h) (he : head = some e) :
    ∃ entry, h = some entry ∧ IdentityEntry.Reads rt recordKey e entry := by
  cases h with
  | none => cases he.symm.trans hhead
  | some entry =>
    obtain ⟨e', he', hreads⟩ := hhead
    obtain rfl := Option.some.inj (he.symm.trans he')
    exact ⟨entry, rfl, hreads⟩

theorem HeadReads.not_multisignature {head : Option Bytes} {h : Option IdentityEntry}
    (hhead : HeadReads rt recordKey head h) : isMultisignatureValue rt head = false := by
  cases head with
  | none => rfl
  | some e =>
    obtain ⟨entry, -, hreads⟩ := hhead.exists_entry rfl
    exact IdentityEntry.Reads.not_multisignature hreads

/-! ## Validation -/

/-- What validation returns of a legacy Identity. -/
def IdentityEntry.result (recordKey : Bytes) (entry : IdentityEntry) : IdentityOverwriteResult :=
  { recordKey, ownerPublicKey := entry.owner, ownerName := entry.value, seq := entry.seq,
    authorization := none, state := none }

theorem IdentityEntry.Reads.validate (h : IdentityEntry.Reads rt recordKey e entry)
    {seqState : SeqState} {x : IdentityOverwriteResult} :
    validateLegacyIdentity rt recordKey e seqState = .ok x ↔
      MayFollow entry.seq entry.owner (seqState recordKey) ∧ x = entry.result recordKey := by
  obtain ⟨legacy, hreads, hkind, howner, hseq, hname⟩ := h
  rw [validateLegacyIdentity_eq_ok, ← howner, ← hseq]
  constructor
  · rintro ⟨legacy', name, hreads', -, hname', hfollow, rfl⟩
    obtain rfl := hreads.unique hreads'
    have heq := hname.symm.trans hname'
    simp only [Option.some.injEq, Value.atom.injEq, Atom.bytes.injEq] at heq
    refine ⟨hfollow, ?_⟩
    simp [IdentityEntry.result, howner, hseq, heq]
  · rintro ⟨hfollow, rfl⟩
    refine ⟨legacy, entry.value, hreads, hkind, hname, hfollow, ?_⟩
    simp [IdentityEntry.result, howner, hseq]

/-- **Validation over the head is that of the register.** -/
theorem validateIdentityOverwrite_entry {head : Option Bytes} {h : Option IdentityEntry}
    (hhead : HeadReads rt recordKey head h) (he : IdentityEntry.Reads rt recordKey e entry)
    {x : IdentityOverwriteResult} :
    validateIdentityOverwrite rt recordKey e head none = .ok x ↔
      Admits h entry ∧ x = entry.result recordKey := by
  simp only [validateIdentityOverwrite, he.not_multisignature, Bool.false_eq_true, if_false,
    bind_eq_ok, raiseIf_eq_ok, exists_const, he.validate, seqStateOf, if_true]
  cases h with
  | none =>
    obtain rfl : head = none := hhead
    simp [MayFollow]
  | some entry' =>
    obtain ⟨L, rfl, hL⟩ := hhead
    obtain ⟨legacy, hreads, hkind, howner, hseq, -⟩ := id hL
    simp only [Option.mem_def, Option.some.injEq, exists_eq_left', hL.not_multisignature,
      Bool.false_eq_true, not_false_iff, true_and, Option.bind_some, MayFollow, forall_eq',
      extractIdentityPrevSeqState_legacy hreads hkind, admits_some, howner, hseq]
    refine and_congr_left fun _ => ?_
    rw [and_comm, eq_comm (a := entry.owner)]

theorem validateIdentityGet_entry (he : IdentityEntry.Reads rt recordKey e entry)
    {chain : Option (List Bytes)} :
    validateIdentityGet rt recordKey e chain = .ok (.legacy (entry.result recordKey)) := by
  simp only [validateIdentityGet, he.not_multisignature, Bool.false_eq_true, if_false, bind_eq_ok,
    he.validate, pure_eq_ok]
  exact ⟨_, ⟨by simp [MayFollow], rfl⟩, rfl⟩

/-! ## An instance by itself -/

/-- A remote read finds nothing, or the head of the instance itself. -/
def Echo (recordKey : Bytes) (s : DhtState) (x : Py (Option Bytes)) : Prop :=
  FindsNothing x ∨ x = .ok (s.durable.get .identity recordKey)

/-- The answers to an instance on which all Identities are published: its lock is given, what it
puts is put, and what it reads remotely is what it has itself, or nothing. -/
structure StandsAlone (env : Environment) : Prop where
  lock : ∀ s, (env.answer .acceptedLock s).1 = .ok ()
  published : ∀ kadKey value context s,
    (env.answer (.putValue kadKey value context) s).1 = .ok ()
  dht : ∀ hash recordKey quorum s, fromHex hash = .ok recordKey →
    Echo recordKey s (env.answer (.getValue (kadKey hash .identity) quorum) s).1
  reader : ∀ hash recordKey s, fromHex hash = .ok recordKey →
    Echo recordKey s (env.answer (.readerEnvelope hash) s).1
  peer : ∀ peer hash recordKey s, fromHex hash = .ok recordKey →
    Echo recordKey s (env.answer (.peerEnvelope peer (kadKey hash .identity)) s).1

/-- The outcome of a read: nothing, or the head. -/
def ReadsHead (recordKey : Bytes) (s : DhtState) (outcome : Py (Option Bytes) × DhtState) : Prop :=
  outcome.2.durable = s.durable ∧
    (outcome.1 = .ok none ∨ outcome.1 = .ok (s.durable.get .identity recordKey))

theorem ReadsHead.of_durable {outcome : Py (Option Bytes) × DhtState} (ht : t.durable = s.durable)
    (h : ReadsHead recordKey t outcome) : ReadsHead recordKey s outcome := by
  rw [ReadsHead, ht] at h
  exact h

theorem ReadsHead.exists_eq {outcome : Py (Option Bytes) × DhtState}
    (h : ReadsHead recordKey s outcome) : ∃ v t, outcome = (.ok v, t) ∧ t.durable = s.durable ∧
      (v = none ∨ v = t.durable.get .identity recordKey) := by
  obtain ⟨x, t⟩ := outcome
  obtain ⟨ht, hx⟩ := h
  dsimp only at ht hx
  rw [← ht] at hx
  rcases hx with rfl | rfl
  · exact ⟨_, t, rfl, ht, .inl rfl⟩
  · exact ⟨_, t, rfl, ht, .inr rfl⟩

/-- A request whose exceptions are handled. -/
theorem readsHead_request {p : Dht (Option Bytes)} {x : Py (Option Bytes)}
    (hp : run env.answer p s = (x, t)) (ht : t.durable = s.durable) (hx : Echo recordKey s x) :
    ReadsHead recordKey s (run env.answer (orOnException p (return none)) s) := by
  rcases hx with hnothing | rfl
  · rw [run_orOnException_nothing hp hnothing]
    exact ⟨ht, .inl rfl⟩
  · rw [run_orOnException, hp]
    exact ⟨ht, .inr rfl⟩

/-- A read with a fall-back. -/
theorem ReadsHead.bind {p : Dht (Option Bytes)} {f : Option Bytes → Dht (Option Bytes)}
    (hp : ReadsHead recordKey s (run env.answer p s))
    (hnone : ∀ t, t.durable = s.durable → ReadsHead recordKey t (run env.answer (f none) t))
    (hsome : ∀ e, f (some e) = return some e) :
    ReadsHead recordKey s (run env.answer (p >>= f) s) := by
  obtain ⟨hdurable, hread⟩ := hp
  rw [run_bind]
  rcases hrun : run env.answer p s with ⟨x, t⟩
  rw [hrun] at hdurable hread
  dsimp only at hdurable hread
  rcases hread with rfl | rfl
  · exact (hnone t hdurable).of_durable hdurable
  · cases hhead : s.durable.get .identity recordKey with
    | none => exact (hnone t hdurable).of_durable hdurable
    | some head =>
      dsimp only
      rw [hsome]
      exact ⟨hdurable, .inr (congrArg Except.ok hhead.symm)⟩

section Alone

variable (h : StandsAlone env) (hkey : fromHex objectKeyHex = .ok recordKey)
  (hlength : recordKey.length = 32)

include h

theorem readsHead_readFromPeers {hash : Text} (hhash : fromHex hash = .ok recordKey)
    (peers : List Text) (s : DhtState) :
    ReadsHead recordKey s (run env.answer (readFromPeers d hash peers) s) := by
  induction peers generalizing s with
  | nil => exact ⟨rfl, .inl rfl⟩
  | cons peer peers ih =>
    rw [readFromPeers]
    split
    · exact ih s
    · refine ReadsHead.bind (readsHead_request run_request (env.keepsDurable _ s) ?_)
        (fun t _ => ih t) fun _ => rfl
      exact h.peer peer hash recordKey s hhash

include hkey

theorem readsHead_readDhtValue (quorum : ℕ) (s : DhtState) :
    ReadsHead recordKey s
      (run env.answer (readDhtValue (kadKey objectKeyHex .identity) quorum) s) :=
  readsHead_request run_request (env.keepsDurable _ s) (h.dht objectKeyHex recordKey quorum s hkey)

include hlength

theorem readsHead_readRemoteIdentityEnvelope (s : DhtState) :
    ReadsHead recordKey s (run env.answer (readRemoteIdentityEnvelope d objectKeyHex) s) := by
  have hrecord : rewrap (fromHex objectKeyHex)
      (valueError "identity object key must be valid hex") = .ok recordKey := by
    rw [hkey]
    rfl
  simp only [readRemoteIdentityEnvelope, run_bind, run_lift, hrecord,
    raiseIf_neg (show ¬ recordKey.length ≠ 32 by simp [hlength])]
  split
  · refine readsHead_request run_request (env.keepsDurable _ s) ?_
    exact h.reader _ recordKey s (fromHex_toHex recordKey)
  · simp only [run_bind, Coro.reads, run_transact]
    exact readsHead_readFromPeers h (fromHex_toHex recordKey) _ s

/-- The DHT value of a read. -/
theorem readsHead_readIdentityForGet (quorum : ℕ) (s : DhtState) :
    ReadsHead recordKey s (run env.answer (readIdentityForGet d objectKeyHex quorum) s) := by
  refine (readsHead_readDhtValue h hkey quorum s).bind (fun t _ => ?_) fun _ => rfl
  simp only [run_bind, Coro.reads, run_transact]
  split
  · exact ⟨rfl, .inl rfl⟩
  · exact readsHead_readRemoteIdentityEnvelope h hkey hlength t

/-- The DHT value of a publication. -/
theorem readsHead_readIdentityForPut (s : DhtState) :
    ReadsHead recordKey s (run env.answer (readIdentityForPut d objectKeyHex none) s) :=
  readsHead_readIdentityForGet h hkey hlength 0 s

end Alone

/-- The newer of what is read and the head is the head. -/
theorem selectNewestEnvelope_readsHead {x : Option Bytes}
    (hx : x = none ∨ x = D.get .identity recordKey) :
    selectNewestEnvelope rt x (D.get .identity recordKey) = .ok (D.get .identity recordKey) := by
  rcases hx with rfl | rfl
  · rfl
  · cases D.get .identity recordKey with
    | none => rfl
    | some head => exact selectNewestEnvelope_self head

/-! ## Publication -/

/-- What is done under the lock. -/
theorem run_withAcceptedLock_eq {α : Type} (h : StandsAlone env) {p : Dht α} {x : Py α}
    (hp : run env.answer p (env.answer .acceptedLock s).2 = (x, t)) :
    run env.answer (withAcceptedLock p) s = (x, { t with acceptedLock := false }) := by
  change run env.answer ((Coro.ofExcept (env.answer .acceptedLock s).1).bind fun _ =>
    p.andFinally (Coro.modify fun s => { s with acceptedLock := false }))
      (env.answer .acceptedLock s).2 = _
  rw [h.lock s]
  change run env.answer (p.andFinally _) _ = _
  rw [Coro.andFinally, run_bind, run_attempt, hp]
  dsimp only
  rw [run_bind, Coro.modify, run_transact]
  exact run_ofExcept

/-- What a publication leaves in the store. -/
theorem Represents.install {m : Bytes} {encodedHistory : Option Bytes} {b : Bytes}
    (hrep : Represents rt D r) (he : IdentityEntry.Reads rt recordKey e entry)
    (hhead : IsHead rt e entry.seq b)
    (hencodes : Encodes rt (identityWrite rt recordKey e entry.seq b (entry.result recordKey)) m
      encodedHistory) :
    Represents rt (D.install (identityWrite rt recordKey e entry.seq b (entry.result recordKey)) m
      encodedHistory) (Function.update r recordKey (some entry)) := by
  refine ⟨fun key => ?_, recordsHeads_install hrep.recorded
    (fun _ => ⟨entry.seq, b, hhead, rfl, rfl⟩) hencodes.metadata, fun key hnone => ?_⟩
  · by_cases hkey : key = recordKey
    · subst hkey
      rw [Function.update_self]
      exact ⟨e, by simp [identityWrite], he⟩
    · rw [Function.update_of_ne hkey]
      simpa [identityWrite, hkey] using hrep.head key
  · by_cases hkey : key = recordKey
    · simp [identityWrite, hkey] at hnone
    · simp only [identityWrite, get_install, hkey, and_false, if_false] at hnone
      simpa [identityWrite, hkey] using hrep.unrecorded key hnone

section Calls

variable (hd : d.durableStore = some ⟨true, true⟩) (hrt : rt.RoundTrips) (henc : rt.EncodesAccepted)
  (h : StandsAlone env) (hkey : fromHex objectKeyHex = .ok recordKey)
    (hlength : recordKey.length = 32)

include hd hrt henc

/-- A taken publication is installed. -/
theorem run_durableInstall_entry (hrep : Represents rt s.durable r)
    (he : IdentityEntry.Reads rt recordKey e entry) (hadmits : Admits (r recordKey) entry) :
    ∃ t, run env.answer (durableInstall rt d .identity recordKey e
        (entry.result recordKey).attributes none) s = (.ok (), t) ∧
      Represents rt t.durable (publish r recordKey entry) := by
  obtain ⟨b, hhead⟩ := he.isHead
  have hvalid := (validateIdentityOverwrite_entry (hrep.head recordKey) he).2 ⟨hadmits, rfl⟩
  obtain ⟨seq, b', hdescribes⟩ := validateIdentityOverwrite_describes hvalid
  obtain rfl := Except.ok.inj (hdescribes.toIsHead.seq.symm.trans hhead.seq)
  obtain ⟨m, encodedHistory, hencodes⟩ := encodes_identityWrite henc entry.seq b' hvalid
  have hold : ∀ L, s.durable.get .identity recordKey = some L → ∃ n v metadata,
      IsHead rt L n v ∧ n < entry.seq ∧ s.durable.metadata .identity recordKey = some metadata ∧
        metadataSeq rt metadata = some n := by
    intro L hL
    obtain ⟨n, v, metadata, hn, hdumps, hmetadata⟩ := hrep.recorded recordKey L hL
    obtain ⟨entry', hentry, hreads⟩ := (hrep.head recordKey).exists_entry hL
    obtain ⟨w, hw⟩ := hreads.isHead
    obtain rfl := Except.ok.inj (hn.seq.symm.trans hw.seq)
    rw [hentry] at hadmits
    exact ⟨_, v, metadata, hn, (admits_some.1 hadmits).2, hmetadata,
      metadataSeq_of_dumps hrt hdumps⟩
  have hother : s.durable.get .identity recordKey ≠ some e := by
    intro hsame
    obtain ⟨n, v, -, hn, hlt, -⟩ := hold e hsame
    exact hlt.ne (Except.ok.inj (hn.seq.symm.trans hhead.seq))
  have haccepts : LMDBDatastore.accepts rt (s.durable.get .identity recordKey)
      (s.durable.metadata .identity recordKey) entry.seq = true := by
    cases hL : s.durable.get .identity recordKey with
    | none =>
      rw [hrep.unrecorded recordKey hL]
      rfl
    | some L =>
      obtain ⟨n, v, metadata, -, hlt, hmetadata, hseq⟩ := hold L hL
      rw [hmetadata]
      simpa [LMDBDatastore.accepts, currentSeq, hseq] using hlt
  refine ⟨_, run_durableInstall_identity hd hother (resultSeqAndStateHash_of_describes hdescribes)
    hencodes haccepts, ?_⟩
  rw [publish, if_pos hadmits]
  exact hrep.install he hdescribes.toIsHead hencodes

include h

theorem run_putLegacyIdentity_entry (hrep : Represents rt s.durable r)
    (he : IdentityEntry.Reads rt recordKey e entry) :
    ∃ x t, run env.answer (putLegacyIdentity rt d objectKeyHex recordKey e
        (s.durable.get .identity recordKey) none) s = (x, t) ∧
      (x = .ok () ↔ Admits (r recordKey) entry) ∧
      Represents rt t.durable (publish r recordKey entry) := by
  have hvalidate :=
    @validateIdentityOverwrite_entry rt recordKey e entry _ _ (hrep.head recordKey) he
  by_cases hadmits : Admits (r recordKey) entry
  · have hpublish : run env.answer (publishDhtValue (kadKey objectKeyHex .identity) e
        (some ⟨recordKey, e, s.durable.get .identity recordKey, none⟩)) s = (.ok (), _) :=
      run_request.trans (Prod.ext (h.published _ e _ s) rfl)
    have hkept := env.keepsDurable (.putValue (kadKey objectKeyHex .identity) e
      (some ⟨recordKey, e, s.durable.get .identity recordKey, none⟩)) s
    obtain ⟨t, hinstall, ht⟩ := run_durableInstall_entry hd hrt henc (hkept ▸ hrep) he hadmits
    refine ⟨_, t, ?_, iff_of_true rfl hadmits, ht⟩
    rw [putLegacyIdentity, run_bind, run_lift, hvalidate.2 ⟨hadmits, rfl⟩]
    exact run_bind.trans (run_bind_eq_ok.2 ⟨(), _, hpublish, hinstall⟩)
  · cases hresult :
      validateIdentityOverwrite rt recordKey e (s.durable.get .identity recordKey) none with
    | ok x => exact (hadmits (hvalidate.1 hresult).1).elim
    | error err =>
      refine ⟨.error err, s, ?_, iff_of_false (by simp) hadmits, ?_⟩
      · rw [putLegacyIdentity, run_bind, run_lift, hresult]
      · rwa [publish, if_neg hadmits]

include hkey hlength

/-- **A publication is taken exactly if the register takes it**, and leaves in the store what the
register holds then. -/
theorem run_putSignedIdentityRecord_entry (hrep : Represents rt s.durable r)
    (he : IdentityEntry.Reads rt recordKey e entry) :
    ∃ x t, run env.answer (putSignedIdentityRecord rt d objectKeyHex e) s = (x, t) ∧
      (x = .ok () ↔ Admits (r recordKey) entry) ∧
      Represents rt t.durable (publish r recordKey entry) := by
  have hsome : d.durableStore.isSome = true := by rw [hd]; rfl
  obtain ⟨v, u, hread, hu, hv⟩ := (@readsHead_readIdentityForPut d env recordKey objectKeyHex h hkey
    hlength (env.answer .acceptedLock s).2).exists_eq
  have hrepu : Represents rt u.durable r := by rwa [hu, env.keepsDurable]
  have hplain := (hrepu.head recordKey).not_multisignature
  have hplain' : isMultisignatureValue rt v = false := by
    rcases hv with rfl | rfl
    · rfl
    · exact hplain
  obtain ⟨x, t, hput, haccepted, ht⟩ : ∃ x t, run env.answer (putLegacyIdentity rt d objectKeyHex
      recordKey e (u.durable.get .identity recordKey) none) u = (x, t) ∧
      (x = .ok () ↔ Admits (r recordKey) entry) ∧
      Represents rt t.durable (publish r recordKey entry) :=
    run_putLegacyIdentity_entry hd hrt henc h hrepu he
  refine ⟨x, { t with acceptedLock := false }, ?_, haccepted, ht⟩
  rw [putSignedIdentityRecord, putIdentityRecord, run_bind, run_lift, hkey]
  refine run_withAcceptedLock_eq h ?_
  rw [run_bind, hread]
  dsimp only
  rw [run_bind, run_durableGet, headIn_eq hsome]
  dsimp only
  rw [run_bind, run_lift, selectIdentityForPut, selectNewestEnvelope_readsHead hv]
  dsimp only [rewrap]
  rw [run_bind, run_lift]
  change run env.answer (requireServableHistory rt d e _ >>= _) u = _
  rw [run_bind, run_requireServableHistory hsome]
  dsimp only
  rw [he.not_multisignature, hplain', hplain]
  exact hput

end Calls

/-! ## Reads -/

theorem historyToCurrent_ne_nil (history : Option (List Bytes)) (e : Bytes) :
    historyToCurrent history (some e) (some e) ≠ some [] := by
  cases history with
  | none => simp [historyToCurrent]
  | some l =>
    by_cases hlast : l.getLast? = some e
    · have hne : l ≠ [] := by
        rintro rfl
        cases hlast
      simp [historyToCurrent, Option.filter, hlast, hne]
    · simp [historyToCurrent, Option.filter, hlast]

section Reads

variable (hd : d.durableStore = some ⟨true, true⟩) (hrt : rt.RoundTrips) (henc : rt.EncodesAccepted)
  (h : StandsAlone env) (hkey : fromHex objectKeyHex = .ok recordKey)
    (hlength : recordKey.length = 32)

include hd hrt henc

/-- The head is in the store already. -/
theorem run_durableCache_entry (hrep : Represents rt s.durable r)
    (he : IdentityEntry.Reads rt recordKey e entry)
    (hhead : s.durable.get .identity recordKey = some e) {history : Option (List Bytes)}
    (hne : history ≠ some []) :
    run env.answer (durableCache rt d .identity recordKey e
      (IdentityRead.legacy (entry.result recordKey)).attributes history) s = (.ok (), s) := by
  obtain ⟨seq, b, hdescribes⟩ :=
    validateIdentityGet_describes (@validateIdentityGet_entry rt recordKey e entry he none)
  have hrecorded := resultSeqAndStateHash_of_describes hdescribes
  obtain ⟨n, v, metadata, hn, hdumps, hmetadata⟩ := hrep.recorded recordKey e hhead
  obtain rfl := Except.ok.inj (hn.seq.symm.trans hdescribes.toIsHead.seq)
  obtain ⟨m, encoded, hencodes⟩ := exists_encodes henc .identity recordKey e n b hne
  have hput := (@putIfNewer_eq_ok rt s.durable _ _ _).2 ⟨m, encoded, hencodes, rfl, rfl⟩
  have haccepts : LMDBDatastore.accepts rt (s.durable.get .identity recordKey)
      (s.durable.metadata .identity recordKey) n = false := by
    rw [hhead, hmetadata]
    simp [LMDBDatastore.accepts, currentSeq, metadataSeq_of_dumps hrt hdumps]
  rw [haccepts] at hput
  exact run_durableCache_eq_ok.2 ⟨_, .ifNewer hd rfl hrecorded hput, rfl⟩

include h hkey hlength

/-- **A read returns what the register holds**, and leaves the store as it is. -/
theorem run_getSignedIdentityRecord_entry (hrep : Represents rt s.durable r) (quorum : ℕ) :
    ∃ t, run env.answer (getSignedIdentityRecord rt d objectKeyHex quorum) s =
        (.ok ((r recordKey).map fun entry => .legacy (entry.result recordKey)), t) ∧
      Represents rt t.durable r := by
  have hsome : d.durableStore.isSome = true := by rw [hd]; rfl
  obtain ⟨v, u, hread, hu, hv⟩ := (@readsHead_readIdentityForGet d env recordKey objectKeyHex h hkey
    hlength quorum (env.answer .acceptedLock s).2).exists_eq
  have hrepu : Represents rt u.durable r := by rwa [hu, env.keepsDurable]
  suffices hunlocked : ∃ x t, run env.answer (getValidatedIdentityEnvelopeUnlocked rt d objectKeyHex
      quorum) (env.answer .acceptedLock s).2 = (.ok x, t) ∧
      x.map (·.2) = (r recordKey).map (fun entry => .legacy (entry.result recordKey)) ∧
      Represents rt t.durable r by
    obtain ⟨x, t, hunlocked, hx, ht⟩ := hunlocked
    refine ⟨{ t with acceptedLock := false }, ?_, ht⟩
    rw [getSignedIdentityRecord, getValidatedIdentityEnvelope, run_bind,
      run_withAcceptedLock_eq h hunlocked, ← hx]
    rfl
  rw [getValidatedIdentityEnvelopeUnlocked, run_bind, run_lift, hkey]
  dsimp only
  rw [run_bind, hread]
  dsimp only
  rw [run_bind, run_durableGet, headIn_eq hsome]
  dsimp only
  rw [selectNewestEnvelope_readsHead hv]
  have hhead := hrepu.head recordKey
  cases hr : r recordKey with
  | none =>
    rw [hr] at hhead
    rw [show u.durable.get .identity recordKey = none from hhead]
    exact ⟨none, u, rfl, rfl, hrepu⟩
  | some entry =>
    rw [hr] at hhead
    obtain ⟨L, hL, hreads⟩ := hhead
    rw [hL]
    dsimp only
    rw [run_bind, run_durableHistory]
    dsimp only
    rw [run_bind, run_validateCurrentIdentity_ok (validateIdentityGet_entry hreads)]
    dsimp only
    refine ⟨some (L, .legacy (entry.result recordKey)), u, ?_, rfl, hrepu⟩
    split
    · exact run_bind_eq_ok.2 ⟨(), u, run_durableCache_entry hd hrt henc hrepu hreads hL
        (historyToCurrent_ne_nil _ L), rfl⟩
    · rfl

end Reads

/-! ## Calls of the service -/

/-- A call of the service: an Identity is published with a private key, or read. -/
inductive IdentityCall
  | put (ownerNameHex : Text) (ownerPrivkeyPemPath : Option Text) (seq : Option Int)
  | get (ownerNameHex : Text) (quorum : ℕ)

namespace IdentityCall

/-- The call, and the Identity that a read returns. -/
def task (rt : Runtime) (keys : KeyStore) (d : DhtInstance) :
    IdentityCall → Dht (Option IdentityRead)
  | .put ownerNameHex path seq => do
    RegistryService.putIdentity rt keys d ⟨ownerNameHex, path, seq, none⟩
    return none
  | .get ownerNameHex quorum => RegistryService.getIdentity rt d ownerNameHex quorum

/-- What the call publishes, and under which key, if it builds an envelope. -/
def publication (rt : Runtime) (keys : KeyStore) : IdentityCall → Option (Bytes × IdentityEntry)
  | .put ownerNameHex (some path) (some seq) =>
    match buildIdentityEnvelope rt keys ownerNameHex path seq, keys.load path,
      fromHex ownerNameHex with
    | .ok _, .ok sk, .ok ownerName =>
      some (rt.sha256 ownerName, ⟨keys.publicKey sk, seq.toNat, ownerName⟩)
    | _, _, _ => none
  | _ => none

theorem publication_put {sk : keys.PrivateKey} {ownerNameHex path : Text} {seq : Int}
    {ownerName : Bytes} (hbuild : buildIdentityEnvelope rt keys ownerNameHex path seq = .ok e)
    (hload : keys.load path = .ok sk) (hname : fromHex ownerNameHex = .ok ownerName) :
    (put ownerNameHex (some path) (some seq)).publication rt keys =
      some (rt.sha256 ownerName, ⟨keys.publicKey sk, seq.toNat, ownerName⟩) := by
  simp [publication, hbuild, hload, hname]

/-- The public key of the private key that signs verifies the signature. -/
def Verifies (rt : Runtime) (keys : KeyStore) : IdentityCall → Prop
  | .put ownerNameHex (some path) (some seq) => ∀ sk ownerName, keys.load path = .ok sk →
    fromHex ownerNameHex = .ok ownerName → IdentityEntry.Verifies rt keys sk ownerName seq
  | _ => True

/-- The outcome of a call on a register: whether a publication is taken, and what a read returns. -/
def Outcome (rt : Runtime) (keys : KeyStore) (r : Bytes → Option IdentityEntry) (c : IdentityCall)
    (x : Py (Option IdentityRead)) : Prop :=
  match c with
  | .put _ _ _ => (∃ u, x = .ok u) ↔ ∃ p ∈ c.publication rt keys, Admits (r p.1) p.2
  | .get ownerNameHex _ => ∀ ownerName, fromHex ownerNameHex = .ok ownerName →
    x = .ok ((r (rt.sha256 ownerName)).map fun entry =>
      .legacy (entry.result (rt.sha256 ownerName)))

theorem run_putIdentity {ownerNameHex path : Text} {seq : Int} :
    run env.answer
      (RegistryService.putIdentity rt keys d ⟨ownerNameHex, some path, some seq, none⟩) s =
      match fromHex ownerNameHex, buildIdentityEnvelope rt keys ownerNameHex path seq with
      | .ok ownerName, .ok e =>
        run env.answer (putSignedIdentityRecord rt d (toHex (rt.sha256 ownerName)) e) s
      | .ok _, .error err => (.error err, s)
      | .error _, _ => (.error (valueError "owner_name must be valid hex"), s) := by
  simp only [RegistryService.putIdentity, RegistryService.deriveIdentityObjectHash, parseHexBytes]
  cases fromHex ownerNameHex with
  | error err => rfl
  | ok ownerName => cases buildIdentityEnvelope rt keys ownerNameHex path seq <;> rfl

section Task

variable {c : IdentityCall} (hd : d.durableStore = some ⟨true, true⟩) (hrt : rt.RoundTrips)
  (henc : rt.EncodesAccepted) (h : StandsAlone env)

include hd hrt henc h

/-- A publication that is signed. -/
theorem run_task_put {ownerNameHex path : Text} {seq : Int} (hrep : Represents rt s.durable r)
    (hsigns : (put ownerNameHex (some path) (some seq)).Verifies rt keys) :
    ∃ x t, run env.answer ((put ownerNameHex (some path) (some seq)).task rt keys d) s = (x, t) ∧
      (put ownerNameHex (some path) (some seq)).Outcome rt keys r x ∧
      Represents rt t.durable
        (publishes r ((put ownerNameHex (some path) (some seq)).publication rt keys).toList) := by
  simp only [task, Outcome, run_bind, run_putIdentity]
  cases hname : fromHex ownerNameHex with
  | error err =>
    refine ⟨_, s, rfl, ?_, ?_⟩ <;> simp [publication, hname]
    exact hrep
  | ok ownerName =>
    cases hbuild : buildIdentityEnvelope rt keys ownerNameHex path seq with
    | error err =>
      refine ⟨_, s, rfl, ?_, ?_⟩ <;> simp [publication, hbuild]
      exact hrep
    | ok e =>
      obtain ⟨sk, ownerName', hload, hname', hreads⟩ := IdentityEntry.reads_of_build hrt hbuild
      obtain rfl := Except.ok.inj (hname.symm.trans hname')
      obtain ⟨n, rfl, he⟩ := hreads (hsigns sk ownerName hload hname)
      obtain ⟨x, t, hput, hadmits, ht⟩ := run_putSignedIdentityRecord_entry hd hrt henc h
        (fromHex_toHex (rt.sha256 ownerName)) (rt.sha256_length ownerName) hrep he
      dsimp only
      rw [hput, publication_put hbuild hload hname, Int.toNat_natCast]
      refine ⟨x.map fun _ => none, t, ?_, ?_, ht⟩
      · cases x <;> rfl
      · simp only [Option.mem_def, Option.some.injEq, exists_eq_left', ← hadmits]
        cases x <;> simp [Except.map]

/-- **A call on the service is a call on the register.** -/
theorem run_task (hrep : Represents rt s.durable r) (hsigns : c.Verifies rt keys) :
    ∃ x t, run env.answer (c.task rt keys d) s = (x, t) ∧ c.Outcome rt keys r x ∧
      Represents rt t.durable (publishes r (c.publication rt keys).toList) := by
  match c with
  | .put ownerNameHex (some path) (some seq) =>
    exact run_task_put hd hrt henc h hrep hsigns
  | .put ownerNameHex none seq =>
    exact ⟨_, s, rfl, by simp [Outcome, publication], hrep⟩
  | .put ownerNameHex (some path) none =>
    exact ⟨_, s, rfl, by simp [Outcome, publication], hrep⟩
  | .get ownerNameHex quorum =>
    simp only [task, RegistryService.getIdentity, RegistryService.deriveIdentityObjectHash,
      parseHexBytes, Outcome]
    cases hname : fromHex ownerNameHex with
    | error err => exact ⟨_, s, rfl, by simp, hrep⟩
    | ok ownerName =>
      obtain ⟨t, hread, ht⟩ := run_getSignedIdentityRecord_entry hd hrt henc h
        (fromHex_toHex (rt.sha256 ownerName)) (rt.sha256_length ownerName) hrep quorum
      refine ⟨_, t, hread, ?_, ht⟩
      rintro _ ⟨⟩
      rfl

end Task

end IdentityCall

/-! ## Runs -/

/-- Calls with their results. -/
abbrev IdentityTrace := List (IdentityCall × Py (Option IdentityRead))

/-- What the calls publish. -/
def IdentityTrace.published (rt : Runtime) (keys : KeyStore) (trace : IdentityTrace) :
    List (Bytes × IdentityEntry) :=
  trace.filterMap fun p => p.1.publication rt keys

/-- Calls on the service of an instance by itself, one after another. Between two calls anything may
happen that leaves the durable store alone. -/
inductive IdentityRun (rt : Runtime) (keys : KeyStore) (d : DhtInstance) (s : DhtState) :
    IdentityTrace → DhtState → Prop
  | start : IdentityRun rt keys d s [] s
  | call {trace : IdentityTrace} {t : DhtState} {env : Environment}
      (before : IdentityRun rt keys d s trace t) (alone : StandsAlone env) (c : IdentityCall) :
      IdentityRun rt keys d s (trace ++ [(c, (run env.answer (c.task rt keys d) t).1)])
        (run env.answer (c.task rt keys d) t).2
  | other {trace : IdentityTrace} {t : DhtState} (before : IdentityRun rt keys d s trace t)
      (u : DhtState) (keeps : u.durable = t.durable) : IdentityRun rt keys d s trace u

section Run

variable {trace before after : IdentityTrace} {c : IdentityCall} {x : Py (Option IdentityRead)}
  (hd : d.durableStore = some ⟨true, true⟩) (hrt : rt.RoundTrips) (henc : rt.EncodesAccepted)

include hd hrt henc

/-- **What is stored after a run** is what the register holds of what was published. -/
theorem IdentityRun.represents (hstart : Represents rt s.durable r)
    (h : IdentityRun rt keys d s trace t) (hsigns : ∀ p ∈ trace, p.1.Verifies rt keys) :
    Represents rt t.durable (publishes r (trace.published rt keys)) := by
  induction h with
  | start => exact hstart
  | @call trace t env before alone c ih =>
    have hrep := ih fun p hp => hsigns p (List.mem_append_left _ hp)
    obtain ⟨x, u, hrun, -, hu⟩ :=
      IdentityCall.run_task hd hrt henc alone hrep
        (hsigns _ (List.mem_append_right _ List.mem_cons_self))
    rw [IdentityTrace.published, List.filterMap_append, publishes_append, hrun]
    cases hentry : c.publication rt keys <;> simpa [IdentityTrace.published, hentry] using hu
  | other before u keeps ih =>
    rw [keeps]
    exact ih hsigns

/-- The outcome of a call is that on the register. -/
theorem IdentityRun.outcome (hstart : Represents rt s.durable r)
    (h : IdentityRun rt keys d s trace t) (hsigns : ∀ p ∈ trace, p.1.Verifies rt keys)
    (htrace : trace = before ++ (c, x) :: after) :
    c.Outcome rt keys (publishes r (before.published rt keys)) x := by
  induction h generalizing after with
  | start => simp at htrace
  | @call trace t env run alone c' ih =>
    have hsigns' : ∀ p ∈ trace, p.1.Verifies rt keys := fun p hp =>
      hsigns p (List.mem_append_left _ hp)
    rcases List.eq_nil_or_concat after with rfl | ⟨after, p, rfl⟩
    · obtain ⟨rfl, heq⟩ := List.append_inj' htrace rfl
      obtain ⟨rfl, rfl⟩ := Prod.mk.inj (List.singleton_inj.1 heq)
      obtain ⟨x, u, hrun, houtcome, -⟩ := IdentityCall.run_task hd hrt henc alone
        (run.represents hd hrt henc hstart hsigns')
        (hsigns _ (List.mem_append_right _ List.mem_cons_self))
      rw [hrun]
      exact houtcome
    · rw [List.concat_eq_append, ← List.cons_append, ← List.append_assoc] at htrace
      exact ih hsigns' (List.append_inj' htrace rfl).1
  | other run u keeps ih => exact ih hsigns htrace

end Run

theorem represents_empty
    (hempty : ∀ key, D.get .identity key = none ∧ D.metadata .identity key = none) :
    Represents rt D fun _ => none := by
  refine ⟨fun key => (hempty key).1, fun key head hhead => ?_, fun key _ => (hempty key).2⟩
  rw [(hempty key).1] at hhead
  cases hhead

/-- **A name belongs to whoever publishes first under it.** On an instance that starts without
Identities, a publication is taken exactly if its envelope can be built and it is the first under
its name, or of the first owner and later than all that this owner has published; and a read returns
the latest that the first owner has published. -/
theorem identityService_first_owner (hd : d.durableStore = some ⟨true, true⟩) (hrt : rt.RoundTrips)
    (henc : rt.EncodesAccepted)
    (hempty : ∀ key, s.durable.get .identity key = none ∧ s.durable.metadata .identity key = none)
    {trace before after : IdentityTrace} {c : IdentityCall} {x : Py (Option IdentityRead)}
    (h : IdentityRun rt keys d s trace t) (hsigns : ∀ p ∈ trace, p.1.Verifies rt keys)
    (htrace : trace = before ++ (c, x) :: after) :
    match c with
    | .put _ _ _ => (∃ u, x = .ok u) ↔ ∃ key entry, c.publication rt keys = some (key, entry) ∧
      ((∀ e, (key, e) ∉ before.published rt keys) ∨
        ∃ h, Latest (before.published rt keys) key h ∧ h.owner = entry.owner ∧ h.seq < entry.seq)
    | .get ownerNameHex _ => ∀ ownerName, fromHex ownerNameHex = .ok ownerName →
      (x = .ok none ∧ ∀ e, (rt.sha256 ownerName, e) ∉ before.published rt keys) ∨
        ∃ h, Latest (before.published rt keys) (rt.sha256 ownerName) h ∧
          x = .ok (some (.legacy (IdentityEntry.result (rt.sha256 ownerName) h))) := by
  have houtcome := h.outcome hd hrt henc (represents_empty hempty) hsigns htrace
  cases c with
  | put ownerNameHex path seq =>
    simp only [IdentityCall.Outcome, admits_publishes_iff, Prod.exists] at houtcome
    exact houtcome
  | get ownerNameHex quorum =>
    intro ownerName hname
    have hx := houtcome ownerName hname
    cases hheld : publishes (fun _ => none) (before.published rt keys) (rt.sha256 ownerName) with
    | none =>
      rw [hheld] at hx
      exact .inl ⟨hx, publishes_eq_none_iff.1 hheld⟩
    | some h =>
      rw [hheld] at hx
      exact .inr ⟨h, latest_of_publishes hheld, hx⟩

/-! ## Samples -/

/-- Key files of the owners, each under the name of its owner. -/
def Sample.ownerKeys : KeyStore where
  PrivateKey := Char
  load
    | [owner] => .ok owner
    | _ => .error (valueError "no such file")
  publicKey := Sample.publicKey
  sign := Sample.signatureBy

/-- An owner publishes the sample name. -/
def Sample.publicationBy (owner : Char) (seq : Int) : IdentityCall :=
  .put (toHex Sample.ownerName) (some [owner]) (some seq)

theorem Sample.publications_checked : ∀ p ∈ [('a', (1 : Int)), ('e', 2)],
    (buildIdentityEnvelope Sample.longRuntime Sample.ownerKeys (toHex Sample.ownerName) [p.1]
      p.2).isOk = true ∧
    (match encodeSignedUpdate Sample.longRuntime
        (identityRecordFields Sample.ownerName (Sample.publicKey p.1)) []
          (.atom (.int p.2)) none with
      | .ok u => Sample.ed25519Verify (Sample.publicKey p.1) (Sha256.sha256 u)
        (Sample.signatureBy p.1 (Sha256.sha256 u))
      | .error _ => false) = true := by
  decide +kernel

section Sample

variable {owner : Char} {seq : Int} (hp : (owner, seq) ∈ [('a', (1 : Int)), ('e', 2)])

include hp

theorem Sample.publicationBy_verifies :
    (Sample.publicationBy owner seq).Verifies Sample.longRuntime Sample.ownerKeys := by
  intro sk ownerName hload hname u hu
  obtain rfl : owner = sk := Except.ok.inj hload
  obtain rfl : Sample.ownerName = ownerName := Except.ok.inj ((fromHex_toHex _).symm.trans hname)
  have hchecked := (Sample.publications_checked _ hp).2
  rw [show encodeSignedUpdate Sample.longRuntime (identityRecordFields Sample.ownerName
    (Sample.publicKey owner)) [] (.atom (.int seq)) none = .ok u from hu] at hchecked
  exact congrArg Except.ok hchecked

theorem Sample.publicationBy_publication :
    (Sample.publicationBy owner seq).publication Sample.longRuntime Sample.ownerKeys =
      some (Sample.identityKey, ⟨Sample.publicKey owner, seq.toNat, Sample.ownerName⟩) := by
  exact @IdentityCall.publication_put Sample.longRuntime Sample.ownerKeys _ owner _ _ _ _
    (eq_ok_valueOf (Sample.publications_checked _ hp).1) rfl (fromHex_toHex _)

end Sample

theorem Sample.standsAlone : StandsAlone (Environment.constantly none) :=
  ⟨fun _ => rfl, fun _ _ _ _ => rfl, fun _ _ _ _ _ => .inl (.inl rfl),
    fun _ _ _ _ => .inl (.inl rfl), fun _ _ _ _ _ => .inl (.inl rfl)⟩

/-- A name that `a` published, and `e` later with a greater number, is read as `a`'s. -/
theorem sampleNames_first_owner : ∃ (before : IdentityTrace) (x : Py (Option IdentityRead))
    (t : DhtState), IdentityRun Sample.longRuntime Sample.ownerKeys Sample.node
      (Sample.stateOver .empty) (before ++ [(.get (toHex Sample.ownerName) 0, x)]) t ∧
    before.published Sample.longRuntime Sample.ownerKeys =
      [(Sample.identityKey, ⟨Sample.publicKey 'a', 1, Sample.ownerName⟩),
        (Sample.identityKey, ⟨Sample.publicKey 'e', 2, Sample.ownerName⟩)] ∧
    x = .ok (some (.legacy (IdentityEntry.result Sample.identityKey
      ⟨Sample.publicKey 'a', 1, Sample.ownerName⟩))) := by
  have hrun := ((((@IdentityRun.start Sample.longRuntime Sample.ownerKeys Sample.node
    (Sample.stateOver .empty)).call Sample.standsAlone (Sample.publicationBy 'a' 1)).call
    Sample.standsAlone (Sample.publicationBy 'e' 2)).call Sample.standsAlone
    (.get (toHex Sample.ownerName) 0))
  have hpublished (x y : Py (Option IdentityRead)) :
      IdentityTrace.published Sample.longRuntime Sample.ownerKeys
        ([] ++ [(Sample.publicationBy 'a' 1, x)] ++ [(Sample.publicationBy 'e' 2, y)]) =
      [(Sample.identityKey, ⟨Sample.publicKey 'a', 1, Sample.ownerName⟩),
        (Sample.identityKey, ⟨Sample.publicKey 'e', 2, Sample.ownerName⟩)] := by
    simp [IdentityTrace.published, Sample.publicationBy_publication]
  refine ⟨_, _, _, hrun, hpublished _ _, ?_⟩
  have hread : ∀ ownerName, fromHex (toHex Sample.ownerName) = .ok ownerName → _ :=
    identityService_first_owner rfl Sample.longRuntime_roundTrips
      ⟨Sample.isSome_dumps_metadata, Sample.isSome_dumps_history⟩ (fun _ => ⟨rfl, rfl⟩) hrun (by
        intro p hp
        simp only [List.nil_append, List.cons_append, List.mem_cons, List.not_mem_nil,
          or_false] at hp
        rcases hp with rfl | rfl | rfl
        · exact Sample.publicationBy_verifies (by simp)
        · exact Sample.publicationBy_verifies (by simp)
        · trivial) rfl
  rcases hread Sample.ownerName (fromHex_toHex _) with ⟨-, hnone⟩ | ⟨h, hlatest, hx⟩
  · refine (hnone ⟨Sample.publicKey 'a', 1, Sample.ownerName⟩ ?_).elim
    rw [hpublished]
    exact List.mem_cons_self
  · rw [hpublished] at hlatest
    obtain ⟨hmem, ⟨front, first, back, hsplit, hfront, howner⟩, -⟩ := hlatest
    have hsplit' : front ++ (Sample.identityKey, first) :: back =
        [] ++ (Sample.identityKey, ⟨Sample.publicKey 'a', 1, Sample.ownerName⟩) ::
          [(Sample.identityKey, ⟨Sample.publicKey 'e', 2, Sample.ownerName⟩)] := hsplit.symm
    have hfirst : first = ⟨Sample.publicKey 'a', 1, Sample.ownerName⟩ :=
      first_unique hsplit' hfront (by simp)
    have hkeys : Sample.publicKey 'a' ≠ Sample.publicKey 'e' := by decide +kernel
    simp only [List.mem_cons, List.not_mem_nil, or_false, Prod.mk.injEq] at hmem
    rcases hmem with ⟨-, rfl⟩ | ⟨-, rfl⟩
    · exact hx
    · rw [hfirst] at howner
      exact absurd howner hkeys

end DecentRegistry
