import DecentRegistry.Dht.Inbound
import DecentRegistry.Dht.NoRollback
import DecentRegistry.Dht.Succession
import DecentRegistry.Sample.LongValues

/-!
# Runs of values put by peers

A value put by a peer is validated, then kept in the value store, then in the durable store. On the
key of an Identity the last of these never fails after the first has succeeded (`PutOutcome`): what
is validated over the head has a greater sequence number, and the metadata of the store is that of
the head. So the two stores agree after each call, and a head gives way only to what supersedes it
(`inboundRun_consistent`). -/

namespace DecentRegistry

open Fallible PyValue Coroutine LMDBDatastore

variable {rt : Runtime} {d : DhtInstance}
  {answer : (q : Request) → DhtState → Py q.Answer × DhtState}
  {s t : DhtState} {kind : RecordKind} {key value recordKey e : Bytes}

/-! ## What a write can change -/

/-- A store after a write of one record, if it was written. -/
inductive Written (kind : RecordKind) (key value : Bytes) (D : LMDBDatastore) :
    LMDBDatastore → Prop
  | same : Written kind key value D D
  | put : Written kind key value D (D.put kind key value)
  | install (seq : Int) (stateHash : Bytes) (history : Option (List Bytes)) (m : Bytes)
      (encodedHistory : Option Bytes) :
      Written kind key value D
        (D.install ⟨kind, key, value, seq, stateHash, history⟩ m encodedHistory)

theorem run_storePutIfNewer_written {w : AcceptedWrite} : ∃ x D,
    run answer (storePutIfNewer rt w) s = (x, { s with durable := D }) ∧
      Written w.kind w.key w.value s.durable D := by
  simp only [storePutIfNewer, run_transact]
  split
  · rename_i accepted D hput
    obtain ⟨m, encodedHistory, -, rfl, rfl⟩ := putIfNewer_eq_ok.1 hput
    refine ⟨_, _, rfl, ?_⟩
    split
    · exact .install w.seq w.stateHash w.history m encodedHistory
    · exact .same
  · exact ⟨_, _, rfl, .same⟩

theorem run_durableInstall_written {result : ResultAttributes} {history : Option (List Bytes)} :
    ∃ x D, run answer (durableInstall rt d kind key value result history) s =
        (x, { s with durable := D }) ∧ Written kind key value s.durable D := by
  have hinstall (backend : StorageBackend) : ∃ x D,
      run answer (installAccepted rt d backend kind key value result history) s =
        (x, { s with durable := D }) ∧ Written kind key value s.durable D := by
    simp only [installAccepted, run_bind, run_durableGet]
    split
    · exact ⟨_, _, rfl, .same⟩
    simp only [run_bind, run_lift]
    cases resultSeqAndStateHash rt result value with
    | error err => exact ⟨_, _, rfl, .same⟩
    | ok recorded =>
      dsimp only
      split
      · exact ⟨_, _, run_transact, .put⟩
      generalize hw : AcceptedWrite.mk kind key value recorded.1 recorded.2
        (if kind = .identity then result.state.bind (·.history) else history) = w
      obtain ⟨x, D, hput, hwritten⟩ : ∃ x D,
          run answer (storePutIfNewer rt w) s = (x, { s with durable := D }) ∧
            Written kind key value s.durable D := by
        subst hw
        exact run_storePutIfNewer_written
      rw [run_bind, hput]
      rcases x with err | accepted
      · exact ⟨_, D, rfl, hwritten⟩
      cases accepted with
      | true => exact ⟨_, D, rfl, hwritten⟩
      | false =>
        simp only [Bool.not_false, if_true, run_bind, run_durableGet]
        split <;> exact ⟨_, D, rfl, hwritten⟩
  simp only [durableInstall]
  split
  · rw [run_bind, run_lift]
    cases requireDurableIdentityHistory d result with
    | error err => exact ⟨_, _, rfl, .same⟩
    | ok _ =>
      cases d.durableStore with
      | none => exact ⟨_, _, rfl, .same⟩
      | some backend => exact hinstall backend
  · cases d.durableStore with
    | none => exact ⟨_, _, rfl, .same⟩
    | some backend => exact hinstall backend

/-- The Identities of two stores are the same. -/
structure SameIdentities (rt : Runtime) (D D' : LMDBDatastore) : Prop where
  head : ∀ key, D'.get .identity key = D.get .identity key
  metadata : ∀ key, D'.metadata .identity key = D.metadata .identity key
  history : ∀ key, D'.getHistory rt .identity key = D.getHistory rt .identity key

theorem sameIdentities_refl (D : LMDBDatastore) : SameIdentities rt D D :=
  ⟨fun _ => rfl, fun _ => rfl, fun _ => rfl⟩

theorem Written.sameIdentities {D D' : LMDBDatastore} (h : Written .provider key value D D') :
    SameIdentities rt D D' := by
  cases h with
  | same => exact sameIdentities_refl D
  | put => exact ⟨by simp, by simp, by simp⟩
  | install => exact ⟨by simp, by simp, by simp⟩

/-! ## Preparation -/

/-- On the key of a record what is prepared is what is validated. -/
theorem prepareDurableAcceptance_eq (hd : d.durableStore.isSome = true) {text : Text}
    (hparse : parseKey text = .ok (kind, recordKey)) :
    prepareDurableAcceptance rt d false none (utf8 text) e = (do
      return (← validateDhtRecord rt d none text e).map fun result =>
        ⟨kind, recordKey, e, result⟩) := by
  have hsome : d.durableStore ≠ none := Option.isSome_iff_ne_none.1 hd
  have hkey : (do let kadKey ← decodeUtf8 (utf8 text); return (kadKey, ← parseKey kadKey) :
      Py (Text × RecordKind × Bytes)) = .ok (text, kind, recordKey) := by
    rw [decodeUtf8_utf8, ok_bind, hparse]
    rfl
  simp only [prepareDurableAcceptance, hsome, Bool.false_eq_true, or_self, if_false, hkey]
  refine congrArg _ (funext fun x => ?_)
  cases x <;> rfl

/-- On any other key nothing is validated. -/
theorem prepareDurableAcceptance_of_error {err : PyError}
    (h : decodeUtf8 key >>= parseKey = .error err) :
    prepareDurableAcceptance rt d false none key e = pure none := by
  have hkey : ∃ err, (do let kadKey ← decodeUtf8 key; return (kadKey, ← parseKey kadKey) :
      Py (Text × RecordKind × Bytes)) = .error err := by
    cases hdecode : decodeUtf8 key with
    | error err' => exact ⟨err', rfl⟩
    | ok text =>
      rw [hdecode, ok_bind] at h
      exact ⟨err, by rw [ok_bind, h]; rfl⟩
  obtain ⟨err', hkey⟩ := hkey
  simp only [prepareDurableAcceptance, hkey, ite_self]

/-! ## Keys of other records -/

/-- On the key of a Provider Record the validation changes nothing. -/
theorem run_validateDhtRecord_provider {hash : Text} (hkey : fromHex hash = .ok recordKey)
    (hlength : recordKey.length = 32) : ∃ x,
      run answer (validateDhtRecord rt d none (kadKey hash .provider) e) s = (x, s) ∧
        ∀ result, x = .ok (some result) → ∃ r, result = .provider r := by
  obtain ⟨_, hhistory⟩ := parseIdentityHistoryKey_kadKey hash .provider
  have hparse : parseKey (kadKey hash .provider) = .ok (.provider, recordKey) :=
    parseKey_eq_ok.2 ⟨hash, rfl, hkey, hlength⟩
  simp only [validateDhtRecord, hparse, run_bind, run_lift, reduceCtorEq, if_false, valueStoreGet,
    hhistory, decodeUtf8_utf8, ok_bind, run_originalGet, run_durableGet]
  cases existingForRecord rt .provider e (s.surroundings.valueStore (utf8 (kadKey hash .provider)))
      (headIn d s.durable .provider recordKey) with
  | error err => exact ⟨_, rfl, by simp⟩
  | ok existing =>
    dsimp only
    split
    · exact ⟨_, rfl, by simp⟩
    simp only [validateOverExisting, run_bind, run_lift]
    cases validateProviderOverwrite rt recordKey e existing with
    | error err => exact ⟨_, rfl, by simp⟩
    | ok r =>
      refine ⟨_, rfl, ?_⟩
      rintro _ ⟨⟩
      exact ⟨r, rfl⟩

/-- The commit of a Provider Record writes that record, if anything. -/
theorem run_commitDurableAcceptance_provider {r : ProviderWrite} : ∃ x D,
    run answer (commitDurableAcceptance rt d (some ⟨.provider, recordKey, e, .provider r⟩)) s =
        (x, { s with durable := D }) ∧ Written .provider recordKey e s.durable D := by
  simp only [commitDurableAcceptance]
  split
  · exact ⟨_, _, rfl, .same⟩
  simp only [run_bind, run_durableGet]
  split
  · exact ⟨_, _, rfl, .same⟩
  cases r with
  | overwrite r =>
    dsimp only
    split
    · exact run_durableInstall_written
    · exact ⟨_, _, run_transact, .put⟩
  | withdrawn r =>
    simp only [run_bind, run_lift]
    cases orRaise r.predecessorEnvelopeCbor
        (valueError "Provider tombstone acceptance requires predecessor evidence") with
    | error err => exact ⟨_, _, rfl, .same⟩
    | ok prior =>
      simp only [run_durableHistory]
      exact run_durableInstall_written

/-- **A value put under any other key** leaves the Identities and their values as they are. -/
theorem run_inboundPut_other (hd : d.durableStore.isSome = true)
    (hother : ∀ recordKey, decodeUtf8 key >>= parseKey ≠ .ok (.identity, recordKey)) :
    ∃ x t, run answer (inboundPut rt d key value) s = (x, t) ∧
      SameIdentities rt s.durable t.durable ∧
      ∀ key' ≠ key, t.surroundings.valueStore key' = s.surroundings.valueStore key' := by
  have hkept {key' : Bytes} (h : key' ≠ key) :
      (s.remember key value).surroundings.valueStore key' = s.surroundings.valueStore key' :=
    if_neg h
  simp only [inboundPut, valueStorePut, run_bind]
  cases hparse : decodeUtf8 key >>= parseKey with
  | error err =>
    rw [prepareDurableAcceptance_of_error hparse]
    exact ⟨_, _, rfl, sameIdentities_refl _, fun _ => hkept⟩
  | ok parsed =>
    obtain ⟨kind, recordKey⟩ := parsed
    cases kind with
    | identity => exact (hother _ hparse).elim
    | provider =>
      obtain ⟨hash, rfl, hkey, hlength⟩ := parse_eq_ok.1 hparse
      obtain ⟨x, hvalidate, hprovider⟩ : ∃ x,
          run answer (validateDhtRecord rt d none (kadKey hash .provider) value) s = (x, s) ∧
            ∀ result, x = .ok (some result) → ∃ r, result = .provider r :=
        run_validateDhtRecord_provider hkey hlength
      rw [prepareDurableAcceptance_eq hd (parseKey_eq_ok.2 ⟨hash, rfl, hkey, hlength⟩), run_bind,
        hvalidate]
      rcases x with err | (_ | result)
      · exact ⟨_, _, rfl, sameIdentities_refl _, fun _ _ => rfl⟩
      · exact ⟨_, _, rfl, sameIdentities_refl _, fun _ => hkept⟩
      · obtain ⟨r, rfl⟩ := hprovider result rfl
        obtain ⟨x, D, hcommit, hwritten⟩ : ∃ x D,
            run answer (commitDurableAcceptance rt d
              (some ⟨.provider, recordKey, value, .provider r⟩))
              (s.remember (utf8 (kadKey hash .provider)) value) =
                (x, { s.remember (utf8 (kadKey hash .provider)) value with durable := D }) ∧
              Written .provider recordKey value s.durable D :=
          run_commitDurableAcceptance_provider
        exact ⟨x, _, hcommit, hwritten.sameIdentities, fun _ => hkept⟩

/-! ## What every run keeps -/

/-- The heads are valid, metadata and histories are those of heads, and the value store has a value
under the key of an Identity only where there is a head. -/
structure Consistent (rt : Runtime) (s : DhtState) : Prop where
  valid : ValidHeads rt s.durable
  recorded : RecordsHeads rt s.durable
  unrecorded : ∀ recordKey, s.durable.get .identity recordKey = none →
    s.durable.metadata .identity recordKey = none
  history : ∀ recordKey history, s.durable.getHistory rt .identity recordKey = some history →
    ∃ head, s.durable.get .identity recordKey = some head ∧ history.getLast? = some head
  memory : ∀ hash recordKey, fromHex hash = .ok recordKey → recordKey.length = 32 →
    s.durable.get .identity recordKey = none →
    s.surroundings.valueStore (utf8 (kadKey hash .identity)) = none

/-- Other Identities are as before, and under other keys the value store has what it had. -/
theorem Consistent.of_same (h : Consistent rt s) (hdurable : SameIdentities rt s.durable t.durable)
    (hother : ∀ recordKey, decodeUtf8 key >>= parseKey ≠ .ok (.identity, recordKey))
    (hmemory : ∀ key' ≠ key, t.surroundings.valueStore key' = s.surroundings.valueStore key') :
    Consistent rt t := by
  refine ⟨?_, ?_, ?_, ?_, ?_⟩
  · intro recordKey head hhead
    rw [hdurable.head] at hhead
    exact h.valid recordKey head hhead
  · intro recordKey head hhead
    rw [hdurable.head] at hhead
    rw [hdurable.metadata]
    exact h.recorded recordKey head hhead
  · intro recordKey hhead
    rw [hdurable.head] at hhead
    rw [hdurable.metadata]
    exact h.unrecorded recordKey hhead
  · intro recordKey history hhistory
    rw [hdurable.history] at hhistory
    rw [hdurable.head]
    exact h.history recordKey history hhistory
  · intro hash recordKey hkey hlength hhead
    rw [hdurable.head] at hhead
    rw [hmemory _ fun heq => hother recordKey (parse_eq_ok.2 ⟨hash, heq.symm, hkey, hlength⟩)]
    exact h.memory hash recordKey hkey hlength hhead

/-- A value is put into the value store under the key of an Identity that has a head. -/
theorem Consistent.remember (h : Consistent rt s) {hash : Text}
    (hkey : fromHex hash = .ok recordKey)
    (hhead : s.durable.get .identity recordKey ≠ none) :
    Consistent rt (s.remember (utf8 (kadKey hash .identity)) value) := by
  refine { h with memory := fun hash' recordKey' hkey' hlength' hhead' => ?_ }
  rw [DhtState.remember_valueStore, if_neg]
  · exact h.memory hash' recordKey' hkey' hlength' hhead'
  · intro heq
    have htext : kadKey hash' .identity = kadKey hash .identity :=
      Except.ok.inj ((decodeUtf8_utf8 _).symm.trans (heq ▸ decodeUtf8_utf8 _))
    obtain rfl := recordKey_of_kadKey htext hkey' hkey
    exact hhead hhead'

/-! ## Installing an Identity -/

/-- `cbor2` encodes what the store records with an envelope: a dictionary of a number and a byte
string, and a list of byte strings. -/
structure Runtime.EncodesAccepted (rt : Runtime) : Prop where
  metadata : ∀ (n : ℕ) (stateHash : Bytes),
    (rt.dumps (metadataValue n stateHash)).isSome = true
  history : ∀ history, (rt.dumps (historyValue history)).isSome = true

/-- The write of an Identity with a given sequence number and SignedUpdate. -/
def identityWrite (rt : Runtime) (recordKey e : Bytes) (n : ℕ) (b : Bytes)
    (r : IdentityOverwriteResult) : AcceptedWrite :=
  ⟨.identity, recordKey, e, n, rt.sha256 b, r.state.bind (·.history)⟩

/-- An accepted Identity can be written. -/
theorem encodes_identityWrite (henc : rt.EncodesAccepted) {existing : Option Bytes}
    {chain : Option (List Bytes)} {r : IdentityOverwriteResult} (n : ℕ) (b : Bytes)
    (h : validateIdentityOverwrite rt recordKey e existing chain = .ok r) :
    ∃ m encodedHistory, Encodes rt (identityWrite rt recordKey e n b r) m encodedHistory := by
  obtain ⟨m, hm⟩ := Option.isSome_iff_exists.1 (henc.metadata n (rt.sha256 b))
  have hlast : ∀ history ∈ r.state.bind (·.history), history.getLast? = some e := by
    intro history hhistory
    obtain ⟨s, hs, hhistory⟩ := Option.bind_eq_some_iff.1 hhistory
    exact history_of_overwrite h s hs history hhistory
  have hne : r.state.bind (·.history) ≠ some [] := by
    intro hnil
    have := hlast [] hnil
    cases this
  cases hhistory : r.state.bind (·.history) with
  | none =>
    exact ⟨m, none, Int.natCast_nonneg n, rt.sha256_length b, hne, hm, by
      simp [identityWrite, hhistory]⟩
  | some history =>
    obtain ⟨encoded, hencoded⟩ := Option.isSome_iff_exists.1 (henc.history history)
    exact ⟨m, some encoded, Int.natCast_nonneg n, rt.sha256_length b, hne, hm, by
      simp [identityWrite, hhistory, hencoded]⟩

/-- The metadata of a consistent store lets an accepted Identity through. -/
theorem Consistent.accepts (hrt : rt.RoundTrips) (hs : Consistent rt s) {n : ℕ} {b : Bytes}
    {chain : Option (List Bytes)} {r : IdentityOverwriteResult} (he : IsHead rt e n b)
    (h : validateIdentityOverwrite rt recordKey e (s.durable.get .identity recordKey) chain =
      .ok r) :
    LMDBDatastore.accepts rt (s.durable.get .identity recordKey)
      (s.durable.metadata .identity recordKey) n = true := by
  cases hhead : s.durable.get .identity recordKey with
  | none =>
    rw [hs.unrecorded recordKey hhead]
    rfl
  | some L =>
    rw [hhead] at h
    obtain ⟨k, m, hk, hm, hlt⟩ := (supersedes_of_overwrite (hs.valid recordKey L hhead) h).newer
    obtain ⟨k', b', metadata, hL, hdumps, hmetadata⟩ := hs.recorded recordKey L hhead
    obtain rfl := Except.ok.inj (hk.symm.trans hL.seq)
    obtain rfl := Except.ok.inj (hm.symm.trans he.seq)
    rw [hmetadata]
    simpa [LMDBDatastore.accepts, currentSeq, metadataSeq_of_dumps hrt hdumps] using hlt

/-- An Identity that the metadata lets through is installed. -/
theorem run_durableInstall_identity (hd : d.durableStore = some ⟨true, true⟩) {n : ℕ} {b m : Bytes}
    {encodedHistory : Option Bytes} {r : IdentityOverwriteResult}
    (hother : s.durable.get .identity recordKey ≠ some e)
    (hrecorded : resultSeqAndStateHash rt r.attributes e = .ok (n, rt.sha256 b))
    (hencodes : Encodes rt (identityWrite rt recordKey e n b r) m encodedHistory)
    (haccepts : LMDBDatastore.accepts rt (s.durable.get .identity recordKey)
      (s.durable.metadata .identity recordKey) n = true) :
    run answer (durableInstall rt d .identity recordKey e r.attributes none) s =
      (.ok (), { s with
        durable := s.durable.install (identityWrite rt recordKey e n b r) m encodedHistory }) := by
  have hput : s.durable.putIfNewer rt (identityWrite rt recordKey e n b r) =
      .ok (true, s.durable.install (identityWrite rt recordKey e n b r) m encodedHistory) :=
    putIfNewer_eq_ok.2 ⟨m, encodedHistory, hencodes, haccepts.symm, rfl⟩
  have hrequired : requireDurableIdentityHistory d r.attributes = .ok () :=
    raiseIf_neg (by simp [hd])
  have hsome : d.durableStore.isSome = true := by rw [hd]; rfl
  have hrun : run answer (storePutIfNewer rt ⟨.identity, recordKey, e, n, rt.sha256 b,
      r.attributes.state.bind (·.history)⟩) s = (.ok true, { s with
        durable := s.durable.install (identityWrite rt recordKey e n b r) m encodedHistory }) :=
    run_storePutIfNewer_eq_ok.2 ⟨_, hput, rfl⟩
  simp only [durableInstall, if_true, run_bind, run_lift, hrequired, hd, installAccepted,
    run_durableGet, headIn_eq hsome, hother, if_false, hrecorded, Bool.not_true,
    Bool.false_eq_true]
  rw [hrun]
  rfl

/-- An installed Identity keeps a state consistent. -/
theorem Consistent.install (hrt : rt.RoundTrips) (hs : Consistent rt s) {n : ℕ} {b m : Bytes}
    {encodedHistory : Option Bytes} {existing : Option Bytes} {chain : Option (List Bytes)}
    {r : IdentityOverwriteResult} (he : IsHead rt e n b)
    (h : validateIdentityOverwrite rt recordKey e existing chain = .ok r)
    (hencodes : Encodes rt (identityWrite rt recordKey e n b r) m encodedHistory)
    (hdurable : t.durable = s.durable.install (identityWrite rt recordKey e n b r) m encodedHistory)
    (hmemory : t.surroundings = s.surroundings) : Consistent rt t := by
  have hget (key : Bytes) : t.durable.get .identity key =
      if key = recordKey then some e else s.durable.get .identity key := by
    simp [hdurable, identityWrite]
  have hmetadata (key : Bytes) : t.durable.metadata .identity key =
      if key = recordKey then some m else s.durable.metadata .identity key := by
    simp [hdurable, identityWrite]
  refine ⟨?_, ?_, ?_, ?_, ?_⟩
  · intro key head hhead
    rw [hget] at hhead
    split at hhead
    · rename_i hkey
      obtain rfl := Option.some.inj hhead
      exact hkey ▸ identityHead_of_overwrite h
    · exact hs.valid key head hhead
  · rw [hdurable]
    exact recordsHeads_install hs.recorded (fun _ => ⟨n, b, he, rfl, rfl⟩) hencodes.metadata
  · intro key hhead
    rw [hget] at hhead
    rw [hmetadata]
    split at hhead
    · cases hhead
    · rename_i hkey
      rw [if_neg hkey]
      exact hs.unrecorded key hhead
  · intro key history hhistory
    rw [hget]
    rw [hdurable, getHistory_install] at hhistory
    split at hhistory
    · rename_i hkey
      obtain ⟨encoded, rfl, hdecoded⟩ := Option.bind_eq_some_iff.1 hhistory
      obtain ⟨stored, hstored, hdumps⟩ := Option.map_eq_some_iff.1 hencodes.history
      have hne : stored ≠ [] := by
        rintro rfl
        exact hencodes.history_ne_nil hstored
      obtain rfl := Option.some.inj
        ((decodeHistory_of_dumps hrt hne hdumps).symm.trans hdecoded)
      obtain ⟨state, hstate, hhistory⟩ := Option.bind_eq_some_iff.1 hstored
      exact ⟨e, if_pos hkey.2, history_of_overwrite h state hstate _ hhistory⟩
    · rename_i hkey
      have hne : key ≠ recordKey := fun heq => hkey ⟨rfl, heq⟩
      rw [if_neg hne]
      exact hs.history key history hhistory
  · intro hash key hkey hlength hhead
    rw [hget] at hhead
    rw [hmemory]
    split at hhead
    · cases hhead
    · exact hs.memory hash key hkey hlength hhead

/-! ## Keys of Identities -/

/-- What a value put under the key of an Identity comes to: the validation raises, the value is the
head already, or it is installed. -/
inductive PutOutcome (rt : Runtime) (d : DhtInstance) (hash : Text) (recordKey e : Bytes)
    (s : DhtState) : Py Unit → DhtState → Prop
  | raised {err : PyError} {x : Option Bytes} {t : DhtState}
      (served : Served rt d recordKey (utf8 (kadKey hash .identity)) s x t) :
      PutOutcome rt d hash recordKey e s (.error err) t
  | repeated {x : Option Bytes} {t : DhtState}
      (served : Served rt d recordKey (utf8 (kadKey hash .identity)) s x t)
      (head : s.durable.get .identity recordKey = some e) :
      PutOutcome rt d hash recordKey e s (.ok ()) (t.remember (utf8 (kadKey hash .identity)) e)
  | installed {n : ℕ} {b m : Bytes} {encodedHistory : Option Bytes} {x : Option Bytes}
      {t : DhtState} {chain : Option (List Bytes)} {r : IdentityOverwriteResult}
      (served : Served rt d recordKey (utf8 (kadKey hash .identity)) s x t)
      (isHead : IsHead rt e n b)
      (accepted : validateIdentityOverwrite rt recordKey e (s.durable.get .identity recordKey)
        chain = .ok r)
      (encodes : Encodes rt (identityWrite rt recordKey e n b r) m encodedHistory) :
      PutOutcome rt d hash recordKey e s (.ok ()) (DhtState.remember { t with
        durable := s.durable.install (identityWrite rt recordKey e n b r) m encodedHistory }
          (utf8 (kadKey hash .identity)) e)

section Identity

variable {hash : Text} (hd : d.durableStore = some ⟨true, true⟩) (hrt : rt.RoundTrips)
  (henc : rt.EncodesAccepted) (hkey : fromHex hash = .ok recordKey)
    (hlength : recordKey.length = 32)
  (hs : Consistent rt s)

include hkey hlength hs in
/-- What is selected to validate over is the head. -/
theorem Served.select {x : Option Bytes}
    (h : Served rt d recordKey (utf8 (kadKey hash .identity)) s x t) :
    selectNewestEnvelope rt x (s.durable.get .identity recordKey) =
      .ok (s.durable.get .identity recordKey) := by
  cases hhead : s.durable.get .identity recordKey with
  | none =>
    cases h with
    | stored => rw [hs.memory hash recordKey hkey hlength hhead]; rfl
    | head h => rw [hhead] at h; cases h
    | nothing => rfl
  | some L =>
    rcases h.eq_head hhead with rfl | rfl
    · rfl
    · exact if_pos rfl

include hd hrt henc hs in
/-- The commit of an Identity that was accepted over the head. -/
theorem run_commitDurableAcceptance_identity (hdurable : t.durable = s.durable)
    {chain : Option (List Bytes)} {r : IdentityOverwriteResult}
    (hother : s.durable.get .identity recordKey ≠ some e)
    (h : validateIdentityOverwrite rt recordKey e (s.durable.get .identity recordKey) chain =
      .ok r) : ∃ n b m encodedHistory, IsHead rt e n b ∧
      Encodes rt (identityWrite rt recordKey e n b r) m encodedHistory ∧
      run answer (commitDurableAcceptance rt d (some ⟨.identity, recordKey, e, .identity r⟩)) t =
        (.ok (), { t with
          durable := s.durable.install (identityWrite rt recordKey e n b r) m
            encodedHistory }) := by
  have hsome : d.durableStore.isSome = true := by rw [hd]; rfl
  obtain ⟨n, b, hdescribes⟩ := validateIdentityOverwrite_describes h
  obtain ⟨m, encodedHistory, hencodes⟩ := encodes_identityWrite henc n b h
  refine ⟨n, b, m, encodedHistory, hdescribes.toIsHead, hencodes, ?_⟩
  rw [← hdurable] at hother
  have haccepts := hs.accepts hrt hdescribes.toIsHead h
  rw [← hdurable] at haccepts
  rw [commitDurableAcceptance_identity hsome, run_bind, run_durableGet, headIn_eq hsome,
    ← hdurable]
  dsimp only
  rw [if_neg hother]
  exact run_durableInstall_identity hd hother (resultSeqAndStateHash_of_describes hdescribes)
    hencodes haccepts

include hd hrt henc hkey hlength hs

/-- **A value put under the key of an Identity.** Its commit never fails. -/
theorem run_inboundPut_identity : ∃ x t,
    run answer (inboundPut rt d (utf8 (kadKey hash .identity)) e) s = (x, t) ∧
      PutOutcome rt d hash recordKey e s x t ∧ (∀ err, x = .error err →
        (run answer
          (prepareDurableAcceptance rt d false none (utf8 (kadKey hash .identity)) e) s).1 =
          .error err) := by
  have hsome : d.durableStore.isSome = true := by rw [hd]; rfl
  have hparse : parseKey (kadKey hash .identity) = .ok (.identity, recordKey) :=
    parseKey_eq_ok.2 ⟨hash, rfl, hkey, hlength⟩
  obtain ⟨x, t, hget, hserved⟩ : ∃ x t,
      run answer (valueStoreGet rt d (utf8 (kadKey hash .identity))) s = (.ok x, t) ∧
        Served rt d recordKey (utf8 (kadKey hash .identity)) s x t :=
    run_valueStoreGet hsome hkey hlength
  have hvalidate := run_validateDhtRecord (e := e) hsome hkey hlength hget hserved.durable
  simp only [inboundDecision, hserved.select hkey hlength hs, ok_bind] at hvalidate
  simp only [inboundPut, valueStorePut, run_bind, prepareDurableAcceptance_eq hsome hparse,
    hvalidate]
  by_cases hsame : s.durable.get .identity recordKey = some e
  · rw [if_pos hsame]
    exact ⟨_, _, rfl, .repeated hserved hsame, fun _ h => by cases h⟩
  rw [if_neg hsame]
  cases haccepted : validateIdentityOverwrite rt recordKey e (s.durable.get .identity recordKey)
      (historyEndingAt (historyIn rt d s.durable .identity recordKey)
        (s.durable.get .identity recordKey)) with
  | error err =>
    refine ⟨.error err, t, rfl, .raised hserved, ?_⟩
    rintro _ ⟨⟩
    rfl
  | ok r =>
    have hdurable : (t.remember (utf8 (kadKey hash .identity)) e).durable = s.durable :=
      hserved.durable
    obtain ⟨n, b, m, encodedHistory, hisHead, hencodes, hcommit⟩ :=
      run_commitDurableAcceptance_identity hd hrt henc hs hdurable hsame haccepted
    exact ⟨_, _, hcommit, .installed hserved hisHead haccepted hencodes, fun _ h => by cases h⟩

end Identity

namespace PutOutcome

variable {hash : Text} {x : Py Unit}

/-- **The two stores** are left alone by a call that raises, or hold the same value. -/
theorem agree (h : PutOutcome rt d hash recordKey e s x t) :
    (∃ err, x = .error err ∧ t = s) ∨
      ∃ v, t.surroundings.valueStore (utf8 (kadKey hash .identity)) = some v ∧
        t.durable.get .identity recordKey = some v := by
  cases h with
  | raised served =>
    cases served with
    | stored => exact .inl ⟨_, rfl, rfl⟩
    | head hhead => exact .inr ⟨_, if_pos rfl, hhead⟩
    | nothing => exact .inl ⟨_, rfl, rfl⟩
  | repeated served head =>
    refine .inr ⟨e, if_pos rfl, ?_⟩
    rw [DhtState.remember_durable, served.durable, head]
  | installed =>
    refine .inr ⟨e, if_pos rfl, ?_⟩
    simp [identityWrite]

theorem consistent (hrt : rt.RoundTrips) (hkey : fromHex hash = .ok recordKey)
    (hs : Consistent rt s) (h : PutOutcome rt d hash recordKey e s x t) : Consistent rt t := by
  have hserved {x : Option Bytes} {t : DhtState}
      (h : Served rt d recordKey (utf8 (kadKey hash .identity)) s x t) : Consistent rt t := by
    cases h with
    | stored => exact hs
    | head hhead => exact hs.remember hkey (by simp [hhead])
    | nothing => exact hs
  cases h with
  | raised served => exact hserved served
  | repeated served head =>
    refine (hserved served).remember hkey ?_
    rw [served.durable, head]
    simp
  | @installed n b m encodedHistory _ t _ r served isHead accepted encodes =>
    have hinstalled : Consistent rt { t with
        durable := s.durable.install (identityWrite rt recordKey e n b r) m encodedHistory } := by
      refine (hserved served).install hrt isHead accepted encodes ?_ rfl
      rw [served.durable]
    refine hinstalled.remember hkey ?_
    simp [identityWrite]

/-- A head stays, or gives way to what supersedes it. -/
theorem heads (hs : Consistent rt s) (h : PutOutcome rt d hash recordKey e s x t) (key a : Bytes)
    (ha : s.durable.get .identity key = some a) :
    ∃ b, t.durable.get .identity key = some b ∧ (b = a ∨ Supersedes rt a b) := by
  cases h with
  | raised served => exact ⟨a, by rw [served.durable, ha], .inl rfl⟩
  | repeated served => exact ⟨a, by rw [DhtState.remember_durable, served.durable, ha], .inl rfl⟩
  | installed served isHead accepted encodes =>
    rw [DhtState.remember_durable, get_install]
    split
    · rename_i hsame
      obtain rfl : key = recordKey := hsame.2
      rw [ha] at accepted
      exact ⟨e, rfl, .inr (supersedes_of_overwrite (hs.valid key a ha) accepted)⟩
    · exact ⟨a, ha, .inl rfl⟩

end PutOutcome

/-! ## Runs -/

/-- The states of runs in which peers put values, with nothing in either store at the beginning. -/
inductive InboundRun (rt : Runtime) (d : DhtInstance)
    (answer : (q : Request) → DhtState → Py q.Answer × DhtState) : DhtState → Prop
  | start {s : DhtState} (durable : s.durable = .empty)
      (memory : s.surroundings.valueStore = fun _ => none) : InboundRun rt d answer s
  | put {s : DhtState} (h : InboundRun rt d answer s) (key value : Bytes) :
      InboundRun rt d answer (run answer (inboundPut rt d key value) s).2

theorem consistent_start (hdurable : s.durable = .empty)
    (hmemory : s.surroundings.valueStore = fun _ => none) : Consistent rt s := by
  have hhead (key : Bytes) : s.durable.get .identity key = none := by rw [hdurable]; rfl
  refine ⟨fun key head h => ?_, fun key head h => ?_, fun key _ => ?_, fun key history h => ?_,
    fun _ _ _ _ _ => by rw [hmemory]⟩
  · rw [hhead] at h
    cases h
  · rw [hhead] at h
    cases h
  · rw [hdurable]
    rfl
  · rw [hdurable] at h
    cases h

/-- What one call establishes. -/
structure PutStep (rt : Runtime) (d : DhtInstance)
    (answer : (q : Request) → DhtState → Py q.Answer × DhtState) (key value : Bytes)
    (s : DhtState) (x : Py Unit) (t : DhtState) : Prop where
  agree : ∀ recordKey, decodeUtf8 key >>= parseKey = .ok (.identity, recordKey) →
    (∃ err, (run answer (prepareDurableAcceptance rt d false none key value) s).1 = .error err ∧
      x = .error err ∧ t = s) ∨
    ∃ v, t.surroundings.valueStore key = some v ∧ t.durable.get .identity recordKey = some v
  heads : ∀ recordKey a, s.durable.get .identity recordKey = some a →
    ∃ b, t.durable.get .identity recordKey = some b ∧ (b = a ∨ Supersedes rt a b)
  history : ∀ recordKey history, t.durable.getHistory rt .identity recordKey = some history →
    ∃ head, t.durable.get .identity recordKey = some head ∧ history.getLast? = some head

section Run

variable (hd : d.durableStore = some ⟨true, true⟩) (hrt : rt.RoundTrips) (henc : rt.EncodesAccepted)

include hd hrt henc

/-- **One call.** -/
theorem run_inboundPut (hs : Consistent rt s) : ∃ x t,
    run answer (inboundPut rt d key value) s = (x, t) ∧ Consistent rt t ∧
      PutStep rt d answer key value s x t := by
  by_cases hidentity : ∃ recordKey, decodeUtf8 key >>= parseKey = .ok (.identity, recordKey)
  · obtain ⟨recordKey, hparse⟩ := hidentity
    obtain ⟨hash, rfl, hkey, hlength⟩ := parse_eq_ok.1 hparse
    obtain ⟨x, t, hrun, houtcome, hraised⟩ : ∃ x t,
        run answer (inboundPut rt d (utf8 (kadKey hash .identity)) value) s = (x, t) ∧
          PutOutcome rt d hash recordKey value s x t ∧ (∀ err, x = .error err →
            (run answer (prepareDurableAcceptance rt d false none (utf8 (kadKey hash .identity))
              value) s).1 = .error err) :=
      run_inboundPut_identity hd hrt henc hkey hlength hs
    have ht := houtcome.consistent hrt hkey hs
    refine ⟨x, t, hrun, ht, ?_, houtcome.heads hs, ht.history⟩
    intro recordKey' hparse'
    obtain ⟨-, rfl⟩ := Prod.mk.inj (Except.ok.inj (hparse.symm.trans hparse'))
    refine houtcome.agree.imp_left ?_
    rintro ⟨err, rfl, rfl⟩
    exact ⟨err, hraised err rfl, rfl, rfl⟩
  · rw [not_exists] at hidentity
    have hsome : d.durableStore.isSome = true := by rw [hd]; rfl
    obtain ⟨x, t, hrun, hdurable, hmemory⟩ : ∃ x t,
        run answer (inboundPut rt d key value) s = (x, t) ∧
          SameIdentities rt s.durable t.durable ∧
          ∀ key' ≠ key, t.surroundings.valueStore key' = s.surroundings.valueStore key' :=
      run_inboundPut_other hsome hidentity
    have ht := hs.of_same hdurable hidentity hmemory
    refine ⟨x, t, hrun, ht, fun recordKey hparse => (hidentity recordKey hparse).elim, ?_,
      ht.history⟩
    intro recordKey a ha
    exact ⟨a, by rw [hdurable.head, ha], .inl rfl⟩

/-- **Every state of a run is consistent.** -/
theorem inboundRun_consistent (h : InboundRun rt d answer s) : Consistent rt s := by
  induction h with
  | start durable memory => exact consistent_start durable memory
  | put h key value ih =>
    obtain ⟨x, t, hrun, ht, -⟩ := run_inboundPut hd hrt henc ih
    rw [hrun]
    exact ht

/-- **Values put by peers keep the two stores consistent and monotone.** After each call of a run on
the key of an Identity, either the validation raised and nothing changed, or the two stores hold the
same value; a head gives way only to an envelope that supersedes it; and a stored history ends at
the head. -/
theorem inboundPuts_agree (h : InboundRun rt d answer s) (key value : Bytes) : ∃ x t,
    run answer (inboundPut rt d key value) s = (x, t) ∧ PutStep rt d answer key value s x t := by
  obtain ⟨x, t, hrun, -, hstep⟩ := run_inboundPut hd hrt henc (inboundRun_consistent hd hrt henc h)
  exact ⟨x, t, hrun, hstep⟩

end Run

/-- A peer puts a legacy Identity and then its upgrade. -/
theorem sampleUpgrade_putsAgree : ∃ x t,
    run (Environment.constantly none).answer (inboundPut Sample.longRuntime Sample.node
      (utf8 (kadKey (toHex Sample.identityKey) .identity)) Sample.upgrade)
      (run (Environment.constantly none).answer (inboundPut Sample.longRuntime Sample.node
        (utf8 (kadKey (toHex Sample.identityKey) .identity)) Sample.legacyIdentity)
        (Sample.stateOver .empty)).2 = (x, t) ∧
      PutStep Sample.longRuntime Sample.node (Environment.constantly none).answer
        (utf8 (kadKey (toHex Sample.identityKey) .identity)) Sample.upgrade
        (run (Environment.constantly none).answer (inboundPut Sample.longRuntime Sample.node
          (utf8 (kadKey (toHex Sample.identityKey) .identity)) Sample.legacyIdentity)
          (Sample.stateOver .empty)).2 x t :=
  inboundPuts_agree rfl Sample.longRuntime_roundTrips
    ⟨Sample.isSome_dumps_metadata, Sample.isSome_dumps_history⟩ (.put (.start rfl rfl) _ _) _ _

end DecentRegistry
