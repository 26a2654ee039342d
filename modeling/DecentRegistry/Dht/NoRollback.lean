import DecentRegistry.Dht.Quiet
import DecentRegistry.Dht.Results
import DecentRegistry.Model.Dht.Calls
import DecentRegistry.Sample.Dht

/-!
# No rollback of Identity heads

Whatever calls run on an instance, and however they interleave, an Identity head in the durable
store gives way only to an envelope with a greater sequence number, and the accepted-state metadata
is that of the head (`identityHeads_advance`). The reason is that every Identity write of the
adapter is a `put_if_newer` with the sequence number and state hash of its own envelope
(`storePutIfNewer_keeps`); no write relies on what the task read before it was suspended. -/

namespace DecentRegistry

open Fallible PyValue Coroutine LMDBDatastore

variable {rt : Runtime} {d : DhtInstance}

/-! ## The relation every block keeps -/

/-- The metadata of every Identity head is the sequence number and state hash of the head. -/
def RecordsHeads (rt : Runtime) (store : LMDBDatastore) : Prop :=
  ∀ key head, store.get .identity key = some head → ∃ n b m, IsHead rt head n b ∧
    rt.dumps (metadataValue n (rt.sha256 b)) = some m ∧ store.metadata .identity key = some m

/-- Every Identity head is still there, or has given way to one with a greater sequence number. -/
def Advances (rt : Runtime) (s t : LMDBDatastore) : Prop :=
  ∀ key head, s.get .identity key = some head → ∃ head', t.get .identity key = some head' ∧
    (head' = head ∨ ∃ n n', envelopeSeq rt head = .ok n ∧ envelopeSeq rt head' = .ok n' ∧ n < n')

/-- A store that records its heads goes on to one that does, with heads at least as new. -/
def KeepsHeads (rt : Runtime) (s t : DhtState) : Prop :=
  RecordsHeads rt s.durable → RecordsHeads rt t.durable ∧ Advances rt s.durable t.durable

theorem advances_refl (s : LMDBDatastore) : Advances rt s s :=
  fun _ head h => ⟨head, h, .inl rfl⟩

theorem keepsHeads_of_same {s t : DhtState} (h : SameDurable s t) : KeepsHeads rt s t := by
  intro hs
  rw [show t.durable = s.durable from h]
  exact ⟨hs, advances_refl _⟩

theorem Quiet.keeps {α : Type} {p : Dht α} {Φ : α → Prop} (h : Quiet p Φ) :
    Ensures (KeepsHeads rt) p Φ := h.weaken fun _ _ => keepsHeads_of_same

/-! ## Writes -/

/-- An Identity write records the envelope's own sequence number and state hash. -/
def AcceptedWrite.OwnState (rt : Runtime) (w : AcceptedWrite) : Prop :=
  w.kind = .identity → ∃ n b, IsHead rt w.value n b ∧ w.seq = n ∧ w.stateHash = rt.sha256 b

theorem recordsHeads_install {store : LMDBDatastore} {w : AcceptedWrite} {m : Bytes}
    {encodedHistory : Option Bytes} (hs : RecordsHeads rt store) (hw : w.OwnState rt)
    (hm : rt.dumps (metadataValue w.seq w.stateHash) = some m) :
    RecordsHeads rt (store.install w m encodedHistory) := by
  intro key head hhead
  rw [get_install] at hhead
  rw [metadata_install]
  split at hhead
  · rename_i hsame
    obtain rfl := Option.some.inj hhead
    obtain ⟨n, b, hvalue, hseq, hhash⟩ := hw hsame.1.symm
    exact ⟨n, b, m, hvalue, by rw [← hseq, ← hhash]; exact hm, if_pos hsame⟩
  · rename_i hother
    rw [if_neg hother]
    exact hs key head hhead

/-- Where the heads are recorded, `put_if_newer` replaces a head by a newer one only. -/
theorem advances_install (hrt : rt.RoundTrips) {store : LMDBDatastore} {w : AcceptedWrite}
    {m : Bytes} {encodedHistory : Option Bytes} (hs : RecordsHeads rt store) (hw : w.OwnState rt)
    (haccepts : accepts rt (store.get w.kind w.key) (store.metadata w.kind w.key) w.seq = true) :
    Advances rt store (store.install w m encodedHistory) := by
  intro key head hhead
  rw [get_install]
  split
  · rename_i hsame
    obtain ⟨hkind, rfl⟩ := hsame
    obtain ⟨n', b', hvalue, hseq, -⟩ := hw hkind.symm
    obtain ⟨n, b, m', hhead', hm', hmetadata⟩ := hs _ _ hhead
    refine ⟨w.value, rfl, .inr ⟨n, n', hhead'.seq, hvalue.seq, ?_⟩⟩
    rw [← hkind, hhead, hmetadata] at haccepts
    simpa [accepts, currentSeq, metadataSeq_of_dumps hrt hm', hseq] using haccepts
  · exact ⟨head, hhead, .inl rfl⟩

/-- **One write.** -/
theorem storePutIfNewer_keeps (hrt : rt.RoundTrips) {w : AcceptedWrite} (hw : w.OwnState rt) :
    Ensures (KeepsHeads rt) (storePutIfNewer rt w) fun _ => True := by
  refine .transact (fun s hs => ?_) fun _ _ _ => trivial
  split
  · rename_i accepted t hput
    obtain ⟨m, encodedHistory, hencodes, rfl, rfl⟩ := putIfNewer_eq_ok.1 hput
    dsimp only
    split
    · exact ⟨recordsHeads_install hs hw hencodes.metadata, advances_install hrt hs hw ‹_›⟩
    · exact ⟨hs, advances_refl _⟩
  · exact ⟨hs, advances_refl _⟩

/-- A plain `put` of a Provider Record touches no Identity. -/
theorem storePut_keeps (key value : Bytes) :
    Ensures (KeepsHeads rt) (storePut .provider key value) fun _ => True := by
  refine .modify fun s hs => ?_
  refine ⟨fun key' head hhead => ?_, fun key' head hhead => ⟨head, ?_, .inl rfl⟩⟩
  · simp only [get_put, reduceCtorEq, false_and, if_false, metadata_put] at hhead ⊢
    exact hs key' head hhead
  · simpa using hhead

/-- The result of an Identity write describes its envelope. -/
def DescribesIdentity (rt : Runtime) (kind : RecordKind) (result : ResultAttributes)
    (value : Bytes) : Prop :=
  kind = .identity → ∃ n b, ResultAttributes.Describes rt result value n b

theorem ownState_of_describes {kind : RecordKind} {key value stateHash : Bytes} {seq : ℕ}
    {result : ResultAttributes} {history : Option (List Bytes)}
    (h : DescribesIdentity rt kind result value)
    (hr : resultSeqAndStateHash rt result value = .ok (seq, stateHash)) :
    AcceptedWrite.OwnState rt ⟨kind, key, value, seq, stateHash, history⟩ := by
  intro hkind
  obtain ⟨n, b, hdescribes⟩ := h hkind
  obtain ⟨rfl, rfl⟩ :=
    Prod.mk.inj (Except.ok.inj (hr.symm.trans (resultSeqAndStateHash_of_describes hdescribes)))
  exact ⟨seq, b, hdescribes.toIsHead, rfl, rfl⟩

section Store

/-- The durable store, if there is one, has `put_if_newer`. -/
def DhtInstance.PutsIfNewer (d : DhtInstance) : Prop :=
  ∀ backend ∈ d.durableStore, backend.hasPutIfNewer = true

variable (hrt : rt.RoundTrips) (hd : d.PutsIfNewer)

include hrt hd

theorem installAccepted_keeps {backend : StorageBackend} (hbackend : backend ∈ d.durableStore)
    {kind : RecordKind} {key value : Bytes} {result : ResultAttributes}
    {history : Option (List Bytes)} (h : DescribesIdentity rt kind result value) :
    Ensures (KeepsHeads rt) (installAccepted rt d backend kind key value result history)
      fun _ => True := by
  refine .bind (durableGet_quiet _ _).keeps fun current _ => ?_
  split
  · exact .pure trivial
  · refine .bind (.lift fun _ hr => hr) ?_
    rintro ⟨seq, stateHash⟩ hr
    dsimp only
    rw [if_neg (by simp [hd backend hbackend])]
    refine .bind (storePutIfNewer_keeps hrt (ownState_of_describes h hr)) fun accepted _ => ?_
    split
    · refine .bind (durableGet_quiet _ _).keeps fun current' _ => ?_
      split
      · exact .pure trivial
      · exact .raise
    · exact .pure trivial

theorem durableInstall_keeps {kind : RecordKind} {key value : Bytes} {result : ResultAttributes}
    {history : Option (List Bytes)} (h : DescribesIdentity rt kind result value) :
    Ensures (KeepsHeads rt) (durableInstall rt d kind key value result history) fun _ => True := by
  unfold durableInstall
  refine .when (fun _ => .lift fun _ _ => trivial) fun _ => ?_
  split
  · exact .pure trivial
  · rename_i backend hbackend
    exact installAccepted_keeps hrt hd hbackend h

theorem durableCache_keeps {kind : RecordKind} {key value : Bytes} {result : ResultAttributes}
    {history : Option (List Bytes)} (h : DescribesIdentity rt kind result value) :
    Ensures (KeepsHeads rt) (durableCache rt d kind key value result history) fun _ => True := by
  unfold durableCache
  split
  · exact .pure trivial
  · rename_i backend hbackend
    refine .bind (.lift fun _ hr => hr) ?_
    rintro ⟨seq, stateHash⟩ hr
    dsimp only
    rw [if_neg (by simp [hd backend hbackend])]
    exact .bind (storePutIfNewer_keeps hrt (ownState_of_describes h hr)) fun _ _ => .pure trivial

/-! ## Identity calls -/

theorem putLegacyIdentity_keeps (objectKeyHex : Text) (recordKey envelope : Bytes)
    (rawExisting : Option Bytes) (condition : Option PublicationCondition) :
    Ensures (KeepsHeads rt) (putLegacyIdentity rt d objectKeyHex recordKey envelope rawExisting
      condition) fun _ => True := by
  refine .bind (.lift fun _ h => h) fun result hresult => ?_
  refine .bind (checkNotExpired_quiet _).keeps fun _ _ => ?_
  refine .bind (publishDhtValue_quiet _ _ _).keeps fun _ _ => ?_
  exact durableInstall_keeps hrt hd fun _ => validateIdentityOverwrite_describes hresult

theorem putAcceptedIdentity_keeps (objectKeyHex : Text) (recordKey envelope : Bytes)
    (rawExisting : Option Bytes) (condition : Option PublicationCondition) :
    Ensures (KeepsHeads rt) (putAcceptedIdentity rt d objectKeyHex recordKey envelope rawExisting
      condition) fun _ => True := by
  refine .bind (predecessorChainForPut_quiet _ _ _).keeps fun chain _ => ?_
  refine .bind (.lift fun _ h => h) fun result hresult => ?_
  have hinstall : Ensures (KeepsHeads rt)
      (durableInstall rt d .identity recordKey envelope result.attributes none) fun _ => True :=
    durableInstall_keeps hrt hd fun _ => validateIdentityOverwrite_describes hresult
  refine .when (fun _ => .lift fun _ _ => trivial) fun _ => ?_
  refine .bind (checkNotExpired_quiet _).keeps fun _ _ => ?_
  split
  · refine .bind (publishDhtValue_quiet _ _ _).keeps fun _ _ => ?_
    split
    · exact hinstall
    · exact .pure trivial
  · exact .when (fun _ => hinstall) fun _ => (publishDhtValue_quiet _ _ _).keeps

theorem putIdentityRecord_keeps (objectKeyHex : Text) (envelope : Bytes)
    (condition : Option PublicationCondition) :
    Ensures (KeepsHeads rt) (putIdentityRecord rt d objectKeyHex envelope condition)
      fun _ => True := by
  refine .bind (.lift fun _ _ => trivial) fun recordKey _ => ?_
  refine ensures_withAcceptedLock (fun _ _ => keepsHeads_of_same) ?_
  refine .bind (readIdentityForPut_quiet _ _).keeps fun rawDht _ => ?_
  refine .bind (durableGet_quiet _ _).keeps fun rawLocal _ => ?_
  refine .bind (.lift fun _ _ => trivial) fun rawExisting _ => ?_
  refine .bind (.lift fun _ _ => trivial) fun _ _ => ?_
  refine .bind (requireServableHistory_quiet _ _).keeps fun _ _ => ?_
  split
  · exact putLegacyIdentity_keeps hrt hd _ _ _ _ _
  · exact putAcceptedIdentity_keeps hrt hd _ _ _ _ _

theorem getValidatedIdentityEnvelope_keeps (objectKeyHex : Text) (quorum : ℕ) :
    Ensures (KeepsHeads rt) (getValidatedIdentityEnvelope rt d objectKeyHex quorum)
      fun _ => True := by
  refine ensures_withAcceptedLock (fun _ _ => keepsHeads_of_same) ?_
  refine .bind (.lift fun _ _ => trivial) fun recordKey _ => ?_
  refine .bind (readIdentityForGet_quiet _ _).keeps fun rawDht _ => ?_
  refine .bind (durableGet_quiet _ _).keeps fun rawLocal _ => ?_
  split
  · exact .pure trivial
  · exact .pure trivial
  · refine .bind (durableHistory_quiet _ _).keeps fun history _ => ?_
    refine .bind (validateCurrentIdentity_quiet _ _ _ _).keeps fun validated hvalidated => ?_
    split
    · exact .pure trivial
    · rename_i result chain
      have hresult := hvalidated result chain rfl
      dsimp only
      split
      · refine .bind (durableCache_keeps hrt hd fun _ => validateIdentityGet_describes hresult)
          fun _ _ => .pure trivial
      · exact .pure trivial

theorem confirmIdentityOwnerKeyRotation_keeps (ownerNameHex : Text) (expected : Bytes) :
    Ensures (KeepsHeads rt) (confirmIdentityOwnerKeyRotation rt d ownerNameHex expected)
      fun _ => True := by
  refine .bind (.lift fun _ _ => trivial) fun ownerName _ => ?_
  refine .bind (readRemoteIdentityEnvelope_quiet _).keeps fun remote _ => ?_
  split
  · exact .pure trivial
  · refine .bind (durableHistory_quiet _ _).keeps fun history _ => ?_
    refine .bind (durableGet_quiet _ _).keeps fun localValue _ => ?_
    split
    · exact .pure trivial
    · split
      · rename_i result hresult
        split
        · exact .bind (durableCache_keeps hrt hd fun _ => validateIdentityGet_describes hresult)
            fun _ _ => .pure trivial
        · exact .pure trivial
      · exact .pure trivial

/-! ## Provider calls and values put by peers -/

theorem putLegacyProvider_keeps (objectHash : Text) (recordKey envelope : Bytes)
    (rawDht rawLocal : Option Bytes) :
    Ensures (KeepsHeads rt) (putLegacyProvider rt d objectHash recordKey envelope rawDht rawLocal)
      fun _ => True := by
  unfold putLegacyProvider
  refine .when (fun _ => .lift fun _ _ => trivial) fun _ => ?_
  refine .bind (.lift fun _ _ => trivial) fun result _ => ?_
  refine .bind (.lift fun _ _ => trivial) fun _ _ => ?_
  refine .bind (publishDhtValue_quiet _ _ _).keeps fun _ _ => ?_
  split
  · split
    · exact durableInstall_keeps hrt hd (by rintro ⟨⟩)
    · exact storePut_keeps _ _
  · exact .pure trivial

theorem putAcceptedProvider_keeps (objectHash : Text) (recordKey envelope : Bytes)
    (rawDht rawLocal : Option Bytes) :
    Ensures (KeepsHeads rt) (putAcceptedProvider rt d objectHash recordKey envelope rawDht rawLocal)
      fun _ => True := by
  refine .bind (.lift fun _ _ => trivial) fun rawExisting _ => ?_
  refine .bind (.lift fun _ _ => trivial) fun result _ => ?_
  have hinstall (result : ResultAttributes) (history : Option (List Bytes)) :
      Ensures (KeepsHeads rt)
        (durableInstall rt d .provider recordKey envelope result history) fun _ => True :=
    durableInstall_keeps hrt hd (by rintro ⟨⟩)
  split
  · refine .bind (.lift fun _ _ => trivial) fun existing _ => ?_
    refine .bind (durableHistory_quiet _ _).keeps fun history _ => ?_
    refine .when (fun _ => ?_) fun _ => ?_
    · exact .bind (durableGet_quiet _ _).keeps fun _ _ => .lift fun _ _ => trivial
    · exact .bind (hinstall _ _) fun _ _ => (publishDhtValue_quiet _ _ _).keeps
  · exact .when (fun _ => hinstall _ _) fun _ => (publishDhtValue_quiet _ _ _).keeps

theorem putSignedProviderRecord_keeps (objectHash : Text) (envelope : Bytes) :
    Ensures (KeepsHeads rt) (putSignedProviderRecord rt d objectHash envelope) fun _ => True := by
  refine .bind (.lift fun _ _ => trivial) fun recordKey _ => ?_
  refine ensures_withAcceptedLock (fun _ _ => keepsHeads_of_same) ?_
  refine .bind (readDhtValue_quiet _ _).keeps fun rawDht _ => ?_
  refine .bind (durableGet_quiet _ _).keeps fun rawLocal _ => ?_
  split
  · exact putAcceptedProvider_keeps hrt hd _ _ _ _ _
  · exact putLegacyProvider_keeps hrt hd _ _ _ _ _

theorem getSignedProviderRecord_keeps (objectHash : Text) (quorum : ℕ) :
    Ensures (KeepsHeads rt) (getSignedProviderRecord rt d objectHash quorum) fun _ => True := by
  refine .bind (.lift fun _ _ => trivial) fun recordKey _ => ?_
  refine .bind (readDhtValue_quiet _ _).keeps fun rawDht _ => ?_
  refine .bind (durableGet_quiet _ _).keeps fun rawLocal _ => ?_
  refine .bind (.lift fun _ _ => trivial) fun rawCurrent _ => ?_
  split
  · exact .pure trivial
  · refine .bind (durableHistory_quiet _ _).keeps fun history _ => ?_
    split
    · exact .pure trivial
    · exact .when (fun _ => durableCache_keeps hrt hd (by rintro ⟨⟩)) fun _ => .pure trivial

theorem commitDurableAcceptance_keeps {accepted : Option PreparedAcceptance}
    (h : ∀ a ∈ accepted, a.result.Validated rt a.kind a.recordKey a.envelope) :
    Ensures (KeepsHeads rt) (commitDurableAcceptance rt d accepted) fun _ => True := by
  unfold commitDurableAcceptance
  split
  · exact .pure trivial
  · rename_i a
    have hresult := h a rfl
    split
    · exact .pure trivial
    · refine .bind (durableGet_quiet _ _).keeps fun current _ => ?_
      split
      · exact .pure trivial
      · obtain ⟨kind, recordKey, envelope, result⟩ := a
        rcases result with r | (r | r)
        · obtain ⟨rfl, existing, chain, hresult⟩ := hresult
          dsimp only
          rw [if_pos (.inl rfl)]
          exact durableInstall_keeps hrt hd fun _ => validateIdentityOverwrite_describes hresult
        · obtain ⟨rfl, -⟩ := hresult
          dsimp only
          split
          · exact durableInstall_keeps hrt hd (by rintro ⟨⟩)
          · exact storePut_keeps _ _
        · obtain ⟨rfl, -⟩ := hresult
          refine .bind (.lift fun _ _ => trivial) fun prior _ => ?_
          refine .bind (durableHistory_quiet _ _).keeps fun history _ => ?_
          exact durableInstall_keeps hrt hd (by rintro ⟨⟩)

theorem inboundPut_keeps (key value : Bytes) :
    Ensures (KeepsHeads rt) (inboundPut rt d key value) fun _ => True := by
  refine .bind (prepareDurableAcceptance_quiet _ _ _ _).keeps fun accepted haccepted => ?_
  refine .bind (.modify fun _ => keepsHeads_of_same rfl) fun _ _ => ?_
  exact commitDurableAcceptance_keeps hrt hd haccepted

/-! ## Runs -/

theorem dhtCall_keeps (call : DhtCall) :
    Ensures (KeepsHeads rt) (call.task rt d) fun _ => True := by
  cases call with
  | putIdentity objectKeyHex envelope => exact putIdentityRecord_keeps hrt hd _ _ _
  | putIdentityIfCurrent objectKeyHex envelope expected expiresAt =>
    refine .bind (.lift fun _ _ => trivial) fun expected _ => ?_
    refine .bind (.lift fun _ _ => trivial) fun _ _ => ?_
    exact putIdentityRecord_keeps hrt hd _ _ _
  | getIdentityEnvelope objectKeyHex quorum =>
    refine .bind (Φ := fun _ => True) ?_ fun _ _ => .pure trivial
    exact .bind (getValidatedIdentityEnvelope_keeps hrt hd _ _) fun _ _ => .pure trivial
  | getIdentityRecord objectKeyHex quorum =>
    refine .bind (Φ := fun _ => True) ?_ fun _ _ => .pure trivial
    exact .bind (getValidatedIdentityEnvelope_keeps hrt hd _ _) fun _ _ => .pure trivial
  | confirmRotation ownerNameHex expected =>
    exact .bind (confirmIdentityOwnerKeyRotation_keeps hrt hd _ _) fun _ _ => .pure trivial
  | putProvider objectHash envelope => exact putSignedProviderRecord_keeps hrt hd _ _
  | getProvider objectHash quorum =>
    exact .bind (getSignedProviderRecord_keeps hrt hd _ _) fun _ _ => .pure trivial
  | inboundPut key value => exact inboundPut_keeps hrt hd _ _

end Store

/-- An empty store records its heads. -/
theorem recordsHeads_empty : RecordsHeads rt .empty := by
  intro key head h
  cases h

/-- Any calls, with any answers. -/
abbrev anySchedule (rt : Runtime) (d : DhtInstance) :
    Schedule DhtState Request Request.Answer PyError :=
  dhtSchedule rt d (fun _ _ => True) fun _ _ _ => True

/-- **No rollback.** In every interleaving of calls from an empty durable store, whatever the DHT
and the peers answer, the metadata of each Identity head is that of the head, and a step that
changes a head makes way for one with a greater sequence number. -/
theorem identityHeads_advance (hrt : rt.RoundTrips) (hd : d.PutsIfNewer) {s : DhtState}
    (hempty : s.durable = .empty) {c : Pool DhtState Request Request.Answer PyError}
    (h : Pool.Reachable (anySchedule rt d) s c) :
    RecordsHeads rt c.state.durable ∧
      ∀ c', Pool.Step (anySchedule rt d) c c' → Advances rt c.state.durable c'.state.durable := by
  have hstep {c c' : Pool DhtState Request Request.Answer PyError}
      (h : Pool.Reachable (anySchedule rt d) s c) (hstep : Pool.Step (anySchedule rt d) c c') :
      KeepsHeads rt c.state c'.state := by
    refine (h.step_guarantee (fun _ => keepsHeads_of_same rfl) ?_ ?_ ?_).2 c' hstep
    · rintro s _ ⟨call, -, rfl⟩
      exact dhtCall_keeps hrt hd call
    · rintro q s r t ⟨-, hanswered⟩
      exact keepsHeads_of_same hanswered.sameDurable
    · exact fun _ _ hdrifts => keepsHeads_of_same hdrifts.1
  have hrecords : RecordsHeads rt c.state.durable := by
    induction h with
    | refl =>
      rw [show (⟨s, [], none⟩ : Pool DhtState Request Request.Answer PyError).state = s from rfl,
        hempty]
      exact recordsHeads_empty
    | tail h hlast ih => exact (hstep h hlast ih).1
  exact ⟨hrecords, fun c' hlast => (hstep h hlast hrecords).2⟩

namespace Sample

/-- A read that is called first, and a value that a peer puts. -/
def suspendedRead : DhtCall := .getIdentityRecord (toHex identityKey) 0

def peerPut : DhtCall := .inboundPut (utf8 (kadKey (toHex identityKey) .identity)) legacyIdentity

/-- The state after the peer's value. -/
def peerValuePut : DhtState := after none peerPut (stateOver .empty)

end Sample

/-- While a read waits for the lock, a peer puts the legacy Identity. The read goes on, the DHT
answers the upgrade, and the step that changes the head makes way for a newer one. -/
theorem suspendedRead_advances :
    ∃ c₀ c c', Pool.Reachable (anySchedule Sample.runtime Sample.node)
      (Sample.stateOver .empty) c₀ ∧
      (∃ next, c₀.tasks = [.await .acceptedLock next, .ret ()]) ∧
      Relation.ReflTransGen (Pool.Step (anySchedule Sample.runtime Sample.node)) c₀ c ∧
      Pool.Step (anySchedule Sample.runtime Sample.node) c c' ∧
      c.state.durable.get .identity Sample.identityKey = some Sample.legacyIdentity ∧
      c'.state.durable.get .identity Sample.identityKey ≠ some Sample.legacyIdentity ∧
      RecordsHeads Sample.runtime c.state.durable ∧
      Advances Sample.runtime c.state.durable c'.state.durable := by
  have hanswers (value : Option Bytes) (q : Request) (s : DhtState) :
      (anySchedule Sample.runtime Sample.node).answers q s (Sample.answers value q s).1
        (Sample.answers value q s).2 :=
    ⟨trivial, Sample.answered_answers value q s⟩
  obtain ⟨hput, hlegacy, hupgrade, hother⟩ :
      (run (Sample.answers none) (Sample.peerPut.task Sample.runtime Sample.node)
        (Sample.stateOver .empty)).1 = .ok () ∧
      Sample.peerValuePut.durable.get .identity Sample.identityKey = some Sample.legacyIdentity ∧
      (Sample.after (some Sample.upgrade) Sample.suspendedRead
        Sample.peerValuePut).durable.get .identity Sample.identityKey = some Sample.upgrade ∧
      Sample.upgrade ≠ Sample.legacyIdentity := by
    decide +kernel
  obtain ⟨next, hnext⟩ : ∃ next, Sample.suspendedRead.task Sample.runtime Sample.node =
      .await .acceptedLock next := ⟨_, rfl⟩
  rw [Sample.after, Sample.afterAnswers, hnext] at hupgrade
  -- the read is called, and waits
  have hwaits : Pool.Reachable (anySchedule Sample.runtime Sample.node) (Sample.stateOver .empty)
      ⟨Sample.stateOver .empty, [.await .acceptedLock next], none⟩ :=
    .tail (.single (.call ⟨Sample.suspendedRead, trivial, hnext.symm⟩)) (.suspend (by simp))
  -- the peer's value is taken meanwhile
  have hpeer := hwaits.call rfl ⟨Sample.peerPut, trivial, rfl⟩
    (runs_run _ _ (hanswers none) (Sample.peerPut.task Sample.runtime Sample.node) _)
  rw [hput] at hpeer
  -- the read goes on
  have hfirst : ([.await .acceptedLock next, .ret ()] : List (Dht Unit))[0]? =
      some (.await .acceptedLock next) := rfl
  have hread := Relation.ReflTransGen.head
    (Pool.Step.resume hfirst (hanswers (some Sample.upgrade) .acceptedLock Sample.peerValuePut))
    (Pool.steps_of_runs (runs_run _ _ (hanswers (some Sample.upgrade)) _ _) rfl)
  obtain ⟨c, c', hc, hstep, hsame, hchanged⟩ := Pool.exists_step_of_change
    (fun c => c.state.durable.get .identity Sample.identityKey) hread
    fun h => hother (Option.some.inj (hupgrade.symm.trans (h.trans hlegacy)))
  rw [hlegacy] at hsame hchanged
  obtain ⟨hrecords, hadvances⟩ := identityHeads_advance Sample.runtime_roundTrips
    (by rintro _ ⟨⟩; rfl) rfl (hpeer.trans hc)
  exact ⟨_, c, c', hpeer, ⟨next, rfl⟩, hc, hstep, hsame, hchanged, hrecords, hadvances c' hstep⟩

end DecentRegistry
