import DecentRegistry.Dht.Alone
import DecentRegistry.Dht.Payloads
import DecentRegistry.Sample.Dht

/-!
# Provider reads that are repeated

A read of a Provider Record caches what the DHT answers. Repeated with the same answer and no write
in between, it returns the same result (`providerRead_repeats_iff`), except where a withdrawal is
cached over another head: the head that the first read validated it with is then lost, since the
history stored with the withdrawal is that of the old head.
-/

namespace DecentRegistry

open Fallible PyValue Coroutine

/-! ## Reading twice -/

/-- The DHT answers every read of the key with the value, or fails to answer and the value is
`None`. -/
def Environment.DhtHas (env : Environment) (kadKey : Text) (value : Option Bytes) : Prop :=
  ∀ quorum s, (run env.answer (readDhtValue kadKey quorum) s).1 = .ok value

variable (rt : Runtime) (d : DhtInstance)

/-- A read that returned something from the durable store `D` while the DHT had the value returns
the same again, while the DHT still has it and from the store that the first read left. -/
def ReadRepeats (objectHash : Text) (value : Option Bytes) (D : LMDBDatastore) : Prop :=
  ∀ (env env' : Environment) (quorum quorum' : ℕ) (s s' t : DhtState) (r : ProviderRead),
    env.DhtHas (kadKey objectHash .provider) value →
    env'.DhtHas (kadKey objectHash .provider) value → s.durable = D →
    run env.answer (getSignedProviderRecord rt d objectHash quorum) s = (.ok (some r), s') →
    t.durable = s'.durable →
    (run env'.answer (getSignedProviderRecord rt d objectHash quorum') t).1 = .ok (some r)

/-- **The failing states.** The DHT's value is a valid withdrawal of the durable head and newer, the
store takes it, and the stored history does not end with the head and the withdrawal. -/
def LosesPredecessor (recordKey : Bytes) (value : Option Bytes) (D : LMDBDatastore) : Prop :=
  ∃ (backend : StorageBackend) (e head : Bytes) (r : ProviderRead) (recorded : ℕ × Bytes),
    d.durableStore = some backend ∧ value = some e ∧ D.get .provider recordKey = some head ∧
    head ≠ e ∧ selectNewestEnvelope rt (some e) (some head) = .ok (some e) ∧
    isProviderWithdrawalEnvelope rt (some e) = true ∧
    validateProviderGet rt recordKey e (some head) = .ok r ∧
    resultSeqAndStateHash rt r.attributes e = .ok recorded ∧
    (backend.hasPutIfNewer = true → ∃ D', D.putIfNewer rt
      { kind := .provider, key := recordKey, value := e, seq := recorded.1, stateHash := recorded.2,
        history := historyIn rt d D .provider recordKey } = .ok (true, D')) ∧
    withdrawalPredecessor (historyIn rt d D .provider recordKey) (some e) e ≠ some head

variable {rt d}

/-! ## Validation -/

/-- What raises is no record. -/
theorem validateCurrentProvider_iff_ok {recordKey current : Bytes} {head : Option Bytes}
    {history : Option (List Bytes)} {r : ProviderRead} :
    validateCurrentProvider rt recordKey current head history = some r ↔
      (do
        let payload ← payloadOf rt current
        if payload.isWithdrawn then
          match withdrawalPredecessor history head current with
          | none => return none
          | some predecessor =>
            return some (← validateProviderGet rt recordKey current (some predecessor))
        else return some (← validateProviderGet rt recordKey current none) :
          Py (Option ProviderRead)) = .ok (some r) := by
  unfold validateCurrentProvider payloadOf
  simp only [bind_assoc]
  split
  · rename_i hok
    exact ⟨fun h => h ▸ hok, fun h => Except.ok.inj (hok.symm.trans h)⟩
  · rename_i herror
    exact iff_of_false (by simp) fun h => by cases herror.symm.trans h

theorem validateCurrentProvider_eq_some {recordKey current : Bytes} {head : Option Bytes}
    {history : Option (List Bytes)} {r : ProviderRead} :
    validateCurrentProvider rt recordKey current head history = some r ↔
      ∃ payload, payloadOf rt current = .ok payload ∧
        match payload with
        | .withdrawn _ => ∃ predecessor,
            withdrawalPredecessor history head current = some predecessor ∧
            validateProviderGet rt recordKey current (some predecessor) = .ok r
        | .active _ => validateProviderGet rt recordKey current none = .ok r := by
  rw [validateCurrentProvider_iff_ok, bind_eq_ok]
  refine exists_congr fun payload => and_congr_right fun _ => ?_
  cases payload with
  | active _ => simp [ProviderPayload.isWithdrawn]
  | withdrawn _ =>
    cases withdrawalPredecessor history head current <;> simp [ProviderPayload.isWithdrawn]

/-! ## One read -/

/-- The history that is cached with a result. -/
def cachedHistory (history : Option (List Bytes)) : ProviderRead → Option (List Bytes)
  | .withdrawn _ => history
  | _ => none

/-- A read returns `r` and leaves the store `D'`. -/
def ReadsTo (rt : Runtime) (d : DhtInstance) (recordKey : Bytes) (value : Option Bytes)
    (D : LMDBDatastore) (r : ProviderRead) (D' : LMDBDatastore) : Prop :=
  ∃ current, selectNewestEnvelope rt value (headIn d D .provider recordKey) = .ok (some current) ∧
    validateCurrentProvider rt recordKey current (headIn d D .provider recordKey)
      (historyIn rt d D .provider recordKey) = some r ∧
    if some current = value then
      Caches rt d .provider recordKey current r.attributes
        (cachedHistory (historyIn rt d D .provider recordKey) r) D D'
    else D' = D

theorem run_getSignedProviderRecord_eq_ok {env : Environment} {objectHash : Text}
    {value : Option Bytes} (henv : env.DhtHas (kadKey objectHash .provider) value) {quorum : ℕ}
    {s s' : DhtState} {r : ProviderRead} :
    run env.answer (getSignedProviderRecord rt d objectHash quorum) s = (.ok (some r), s') ↔
      ∃ recordKey t D, fromHex objectHash = .ok recordKey ∧ t.durable = s.durable ∧
        run env.answer (readDhtValue (kadKey objectHash .provider) quorum) s = (.ok value, t) ∧
        ReadsTo rt d recordKey value s.durable r D ∧ s' = { t with durable := D } := by
  obtain ⟨t, hread⟩ : ∃ t, run env.answer (readDhtValue (kadKey objectHash .provider) quorum) s =
      (.ok value, t) := ⟨_, Prod.ext (henv quorum s) rfl⟩
  have hdurable : t.durable = s.durable := by
    simpa [hread] using
      (readDhtValue_quiet (kadKey objectHash .provider) quorum).run_durable env s
  simp only [getSignedProviderRecord, run_bind_eq_ok, run_lift_eq_ok, run_durableGet,
    Prod.mk.injEq, Except.ok.injEq, rewrap_eq_ok]
  constructor
  · rintro ⟨recordKey, _, ⟨hkey, rfl⟩, _, _, hread', _, _, ⟨rfl, rfl⟩, selected, _,
      ⟨hselect, rfl⟩, h⟩
    obtain ⟨rfl, rfl⟩ : value = _ ∧ t = _ := by simpa using hread.symm.trans hread'
    rw [hdurable] at hselect h
    cases selected with
    | none => simp [run_pure_eq_ok] at h
    | some current =>
      simp only [run_bind_eq_ok, run_durableHistory, Prod.mk.injEq, Except.ok.injEq, hdurable] at h
      obtain ⟨_, _, ⟨rfl, rfl⟩, h⟩ := h
      split at h
      · simp [run_pure_eq_ok] at h
      · rename_i result hvalid
        split at h
        · rename_i hcurrent
          simp only [run_bind_eq_ok, run_durableCache_eq_ok, run_pure_eq_ok,
            Option.some.injEq, hdurable] at h
          obtain ⟨-, _, ⟨D, hcaches, rfl⟩, rfl, rfl⟩ := h
          exact ⟨recordKey, t, D, hkey, hdurable, hread,
            ⟨current, hselect, hvalid, by rw [if_pos hcurrent]; exact hcaches⟩, rfl⟩
        · rename_i hcurrent
          simp only [run_pure_eq_ok, Option.some.injEq] at h
          obtain ⟨rfl, rfl⟩ := h
          exact ⟨recordKey, t, s.durable, hkey, hdurable, hread,
            ⟨current, hselect, hvalid, by rw [if_neg hcurrent]⟩, by rw [← hdurable]⟩
  · rintro ⟨recordKey, t', D, hkey, -, hread', ⟨current, hselect, hvalid, hcaches⟩, rfl⟩
    obtain rfl : t = t' := by simpa using hread.symm.trans hread'
    refine ⟨recordKey, s, ⟨hkey, rfl⟩, value, t, hread, _, t, ⟨rfl, rfl⟩, some current, t,
      ⟨hdurable ▸ hselect, rfl⟩, ?_⟩
    simp only [run_bind_eq_ok, run_durableHistory, Prod.mk.injEq, Except.ok.injEq, hdurable]
    refine ⟨_, t, ⟨rfl, rfl⟩, ?_⟩
    simp only [hvalid]
    split
    · rename_i hcurrent
      rw [if_pos hcurrent] at hcaches
      simp only [run_bind_eq_ok, run_durableCache_eq_ok, run_pure_eq_ok, hdurable]
      exact ⟨(), _, ⟨D, hcaches, rfl⟩, trivial, rfl⟩
    · rename_i hcurrent
      rw [if_neg hcurrent] at hcaches
      rw [run_pure_eq_ok, hcaches, ← hdurable]
      exact ⟨rfl, rfl⟩

/-- A read that may return does. -/
theorem ReadsTo.run {recordKey : Bytes} {env : Environment} {objectHash : Text}
    {value : Option Bytes} (henv : env.DhtHas (kadKey objectHash .provider) value)
    (hkey : fromHex objectHash = .ok recordKey) (quorum : ℕ) {s : DhtState} {r : ProviderRead}
    {D : LMDBDatastore} (h : ReadsTo rt d recordKey value s.durable r D) :
    ∃ s', s'.durable = D ∧
      run env.answer (getSignedProviderRecord rt d objectHash quorum) s = (.ok (some r), s') := by
  have hdurable :=
    (readDhtValue_quiet (kadKey objectHash .provider) quorum).run_durable env s
  exact ⟨_, rfl, (run_getSignedProviderRecord_eq_ok henv).2
    ⟨recordKey, _, D, hkey, hdurable, Prod.ext (henv quorum s) rfl, h, rfl⟩⟩

/-! ## What the cache leaves -/

/-- A stored history is stored again under the same bytes. -/
theorem encoding_of_decodeHistory {encoded encoded' : Bytes} {history : List Bytes}
    (h : LMDBDatastore.decodeHistory rt encoded = some history)
    (h' : rt.dumps (LMDBDatastore.historyValue history) = some encoded') : encoded' = encoded := by
  unfold LMDBDatastore.decodeHistory at h
  obtain ⟨v, -, h⟩ := Option.bind_eq_some_iff.1 h
  split at h
  · cases h
  · rename_i hdumps
    obtain ⟨items, hitems, hhistory⟩ := Option.bind_eq_some_iff.1 h
    obtain rfl := Value.asList?_eq_some.1 hitems
    split at hhistory
    · cases hhistory
    · rw [← LMDBDatastore.historyValue_of_mapM hhistory, not_not.1 hdumps] at h'
      exact (Option.some.inj h').symm

/-- Caching with the stored history keeps it. -/
theorem Caches.historyIn_eq {kind : RecordKind} {key value : Bytes} {result : ResultAttributes}
    {D D' : LMDBDatastore}
    (h : Caches rt d kind key value result (historyIn rt d D kind key) D D') :
    historyIn rt d D' kind key = historyIn rt d D kind key := by
  cases h with
  | noStore => rfl
  | plain => simp [historyIn]
  | @ifNewer backend _ _ _ _ h _ _ hput =>
    obtain ⟨m, encoded, hencodes, -, rfl⟩ := LMDBDatastore.putIfNewer_eq_ok.1 hput
    split
    · cases hbackend : backend.hasGetHistory with
      | false => simp [historyIn, h, hbackend]
      | true =>
        have hhistory := hencodes.history
        simp only [historyIn, h, Option.any_some, hbackend, if_true,
          LMDBDatastore.getHistory_install, and_self] at hhistory ⊢
        cases hstored : D.getHistory rt kind key with
        | none =>
          rw [hstored] at hhistory
          cases encoded with
          | none => rfl
          | some _ => cases hhistory
        | some history =>
          rw [hstored] at hhistory
          cases encoded with
          | none => cases hhistory
          | some encoded =>
            obtain ⟨stored, hbytes, hdecode⟩ := Option.bind_eq_some_iff.1 hstored
            have hsame := encoding_of_decodeHistory hdecode (Option.some.inj hhistory)
            rw [hsame]
            exact hdecode
    · rfl

/-- Either nothing is cached, or what is cached is the head. -/
theorem Caches.head {kind : RecordKind} {key value : Bytes} {result : ResultAttributes}
    {history : Option (List Bytes)} {D D' : LMDBDatastore}
    (h : Caches rt d kind key value result history D D') :
    D' = D ∨ headIn d D' kind key = some value := by
  cases h with
  | noStore => exact .inl rfl
  | plain h => exact .inr (by simp [headIn, h])
  | ifNewer h _ _ hput =>
    obtain ⟨m, encoded, -, -, rfl⟩ := LMDBDatastore.putIfNewer_eq_ok.1 hput
    split
    · exact .inr (by simp [headIn, h])
    · exact .inl rfl

/-- What can be cached can be cached again. -/
theorem Caches.again {kind : RecordKind} {key value : Bytes} {result : ResultAttributes}
    {history : Option (List Bytes)} {D D' : LMDBDatastore}
    (h : Caches rt d kind key value result history D D') (E : LMDBDatastore) :
    ∃ E', Caches rt d kind key value result history E E' := by
  cases h with
  | noStore h => exact ⟨E, .noStore h⟩
  | plain h hplain hrecorded => exact ⟨_, .plain h hplain hrecorded⟩
  | ifNewer h hplain hrecorded hput =>
    obtain ⟨m, encoded, hencodes, -⟩ := LMDBDatastore.putIfNewer_eq_ok.1 hput
    exact ⟨_, .ifNewer h hplain hrecorded
      (LMDBDatastore.putIfNewer_eq_ok.2 ⟨m, encoded, hencodes, rfl, rfl⟩)⟩

/-! ## The second read -/

theorem selectNewestEnvelope_self (e : Bytes) :
    selectNewestEnvelope rt (some e) (some e) = .ok (some e) := by
  simp [selectNewestEnvelope, pure, Except.pure]

/-- The predecessor is the durable head, where that is another envelope. -/
theorem withdrawalPredecessor_of_ne {history : Option (List Bytes)} {head current : Bytes}
    (h : head ≠ current) : withdrawalPredecessor history (some head) current = some head := by
  simp [withdrawalPredecessor, h]

variable {recordKey : Bytes} {value : Option Bytes} {D D' : LMDBDatastore} {r : ProviderRead}

/-- A withdrawal cached over another head. -/
theorem Caches.loses {e head : Bytes} {result : ProviderWithdrawnResult}
    (h : Caches rt d .provider recordKey e (ProviderRead.withdrawn result).attributes
      (historyIn rt d D .provider recordKey) D D')
    (hlocal : headIn d D .provider recordKey = some head)
    (hhead : headIn d D' .provider recordKey = some e) (hne : head ≠ e)
    (hselect : selectNewestEnvelope rt (some e) (some head) = .ok (some e))
    (hwithdraws : isProviderWithdrawalEnvelope rt (some e) = true)
    (hget : validateProviderGet rt recordKey e (some head) = .ok (.withdrawn result))
    (hlost : withdrawalPredecessor (historyIn rt d D .provider recordKey) (some e) e ≠ some head) :
    LosesPredecessor rt d recordKey (some e) D := by
  cases h with
  | noStore => exact absurd (Option.some.inj (hlocal.symm.trans hhead)) hne
  | @plain backend recorded h hplain hrecorded =>
    have hstored : D.get .provider recordKey = some head := by simpa [headIn, h] using hlocal
    exact ⟨backend, e, head, _, recorded, h, rfl, hstored, hne, hselect, hwithdraws, hget,
      hrecorded,
      by simp [hplain], hlost⟩
  | @ifNewer backend seq stateHash written _ h hplain hrecorded hput =>
    have hstored : D.get .provider recordKey = some head := by simpa [headIn, h] using hlocal
    obtain rfl : written = true := by
      obtain ⟨m, encoded, -, -, rfl⟩ := LMDBDatastore.putIfNewer_eq_ok.1 hput
      by_contra hnot
      rw [if_neg hnot] at hhead
      exact hne (Option.some.inj (hlocal.symm.trans hhead))
    exact ⟨backend, e, head, _, (seq, stateHash), h, rfl, hstored, hne, hselect, hwithdraws, hget,
      hrecorded, fun _ => ⟨_, hput⟩, hlost⟩

/-- Where no predecessor is lost, what was read is read again. -/
theorem ReadsTo.again (h : ReadsTo rt d recordKey value D r D')
    (hkeeps : ¬ LosesPredecessor rt d recordKey value D) :
    ∃ D'', ReadsTo rt d recordKey value D' r D'' := by
  obtain ⟨current, hselect, hvalid, hcaches⟩ := h
  by_cases hcurrent : some current = value
  swap
  · rw [if_neg hcurrent] at hcaches
    subst hcaches
    exact ⟨_, current, hselect, hvalid, by rw [if_neg hcurrent]⟩
  rw [if_pos hcurrent] at hcaches
  subst hcurrent
  obtain rfl | hhead := hcaches.head
  · exact ⟨_, current, hselect, hvalid, by rwa [if_pos rfl]⟩
  obtain ⟨payload, hpayload, hget⟩ := validateCurrentProvider_eq_some.1 hvalid
  -- the second read finds the value in the store as well
  suffices hagain : validateCurrentProvider rt recordKey current (some current)
      (historyIn rt d D' .provider recordKey) = some r ∧
      cachedHistory (historyIn rt d D' .provider recordKey) r =
        cachedHistory (historyIn rt d D .provider recordKey) r by
    obtain ⟨D'', hcaches'⟩ := hcaches.again D'
    refine ⟨D'', current, ?_, ?_, ?_⟩
    · rw [hhead, selectNewestEnvelope_self]
    · rw [hhead]
      exact hagain.1
    · rw [if_pos rfl, hagain.2]
      exact hcaches'
  cases payload with
  | active _ =>
    refine ⟨validateCurrentProvider_eq_some.2 ⟨_, hpayload, hget⟩, ?_⟩
    have hactive := validateProviderGet_of_payload hget hpayload
    cases r with
    | withdrawn result => exact absurd rfl (hactive result)
    | payload _ => rfl
    | record _ => rfl
  | withdrawn tombstone =>
    obtain ⟨predecessor, hpredecessor, hget⟩ := hget
    obtain ⟨result, rfl, -⟩ := validateProviderGet_of_payload hget hpayload
    have hhistory := hcaches.historyIn_eq
    refine ⟨validateCurrentProvider_eq_some.2 ⟨_, hpayload, predecessor, ?_, hget⟩, hhistory⟩
    rw [hhistory]
    by_contra hlost
    cases hlocal : headIn d D .provider recordKey with
    | none =>
      rw [hlocal] at hpredecessor
      cases hpredecessor
    | some head =>
      rw [hlocal] at hpredecessor hselect
      by_cases hne : head = current
      · exact hlost (hne ▸ hpredecessor)
      · obtain rfl : head = predecessor := by
          rw [withdrawalPredecessor_of_ne hne] at hpredecessor
          exact Option.some.inj hpredecessor
        have hwithdraws := isProviderWithdrawalEnvelope_iff.2 ⟨tombstone, hpayload⟩
        refine hkeeps (hcaches.loses hlocal hhead hne hselect hwithdraws hget ?_)
        exact fun h => hlost h

/-- Where the predecessor is lost, a read that returns is not repeated. -/
theorem LosesPredecessor.not_again (h : LosesPredecessor rt d recordKey value D) :
    ∃ r D', ReadsTo rt d recordKey value D r D' ∧
      ¬ ∃ D'', ReadsTo rt d recordKey value D' r D'' := by
  obtain ⟨backend, e, head, r, recorded, hd, rfl, hstored, hne, hselect, hwithdraws,
    hget, hrecorded,
    hput, hlost⟩ := h
  obtain ⟨tombstone, hpayload⟩ := isProviderWithdrawalEnvelope_iff.1 hwithdraws
  obtain ⟨result, rfl, hresult⟩ := validateProviderGet_of_payload hget hpayload
  have hlocal : headIn d D .provider recordKey = some head := by simp [headIn, hd, hstored]
  obtain ⟨D', hcaches, hhead⟩ : ∃ D', Caches rt d .provider recordKey e
      (ProviderRead.withdrawn result).attributes (historyIn rt d D .provider recordKey) D D' ∧
      headIn d D' .provider recordKey = some e := by
    cases hplain : backend.hasPutIfNewer with
    | false => exact ⟨_, .plain hd hplain hrecorded, by simp [headIn, hd]⟩
    | true =>
      obtain ⟨D', hput⟩ := hput hplain
      refine ⟨D', .ifNewer hd hplain hrecorded hput, ?_⟩
      obtain ⟨m, encoded, -, -, rfl⟩ := LMDBDatastore.putIfNewer_eq_ok.1 hput
      simp [headIn, hd]
  refine ⟨_, D', ⟨e, hlocal ▸ hselect, ?_, by rw [if_pos rfl]; exact hcaches⟩, ?_⟩
  · exact validateCurrentProvider_eq_some.2
      ⟨_, hpayload, head, by rw [hlocal, withdrawalPredecessor_of_ne hne], hget⟩
  · rintro ⟨D'', current, hselect', hvalid, -⟩
    rw [hhead, selectNewestEnvelope_self] at hselect'
    obtain rfl : e = current := Option.some.inj (Except.ok.inj hselect')
    obtain ⟨payload, hpayload', hget'⟩ := validateCurrentProvider_eq_some.1 hvalid
    obtain rfl := Except.ok.inj (hpayload.symm.trans hpayload')
    obtain ⟨predecessor, hpredecessor, hget'⟩ := hget'
    obtain ⟨result', hsame, hresult'⟩ := validateProviderGet_of_payload hget' hpayload
    obtain rfl := ProviderRead.withdrawn.inj hsame
    obtain rfl : head = predecessor := Option.some.inj (hresult.symm.trans hresult')
    rw [hhead, hcaches.historyIn_eq] at hpredecessor
    exact hlost hpredecessor

/-! ## The claim on calls -/

theorem Environment.constantly_dhtHas (value : Option Bytes) (kadKey : Text) :
    (Environment.constantly value).DhtHas kadKey value := fun _ _ => rfl

/-- **A read of a Provider Record is repeatable, except where it loses a predecessor.** -/
theorem providerRead_repeats_iff (rt : Runtime) (d : DhtInstance) (objectHash : Text)
    (value : Option Bytes) (D : LMDBDatastore) :
    ReadRepeats rt d objectHash value D ↔
      ∀ recordKey, fromHex objectHash = .ok recordKey →
        ¬ LosesPredecessor rt d recordKey value D := by
  constructor
  · intro h recordKey hkey hloses
    obtain ⟨r, D', hread, hnot⟩ := hloses.not_again
    have henv := Environment.constantly_dhtHas value (kadKey objectHash .provider)
    obtain ⟨s', rfl, hrun⟩ := ReadsTo.run henv hkey 0 (show ReadsTo rt d recordKey value
      (Sample.stateOver D).durable r D' from hread)
    have hagain := h _ _ 0 0 _ _ s' r henv henv rfl hrun rfl
    obtain ⟨_, _, D'', hkey', -, -, hread', -⟩ :=
      (run_getSignedProviderRecord_eq_ok henv).1 (Prod.ext hagain rfl)
    obtain rfl := Except.ok.inj (hkey.symm.trans hkey')
    exact hnot ⟨D'', hread'⟩
  · rintro hkeeps env env' quorum quorum' s s' t r henv henv' rfl hrun ht
    obtain ⟨recordKey, _, D', hkey, -, -, hread, rfl⟩ :=
      (run_getSignedProviderRecord_eq_ok henv).1 hrun
    obtain ⟨D'', hread'⟩ := hread.again (hkeeps recordKey hkey)
    obtain rfl : t.durable = D' := ht
    obtain ⟨_, -, hrun'⟩ := ReadsTo.run henv' hkey quorum' hread'
    rw [hrun']

/-- Reading twice from a store while the DHT has a value. -/
def readTwice (rt : Runtime) (d : DhtInstance) (objectHash : Text) (value : Option Bytes)
    (D : LMDBDatastore) : Py (Option ProviderRead) × Py (Option ProviderRead) :=
  let read := run (Environment.constantly value).answer (getSignedProviderRecord rt d objectHash 0)
  let first := read (Sample.stateOver D)
  (first.1, (read first.2).1)

theorem ReadRepeats.readTwice {objectHash : Text} (h : ReadRepeats rt d objectHash value D)
    (hfirst : (readTwice rt d objectHash value D).1 = .ok (some r)) :
    (readTwice rt d objectHash value D).2 = .ok (some r) := by
  have henv := Environment.constantly_dhtHas value (kadKey objectHash .provider)
  exact h _ _ 0 0 _ _ _ r henv henv rfl (Prod.ext hfirst rfl) rfl

/-- **A withdrawal that is read once.** The owner's withdrawal comes from the DHT: the first read
returns it, and the second returns nothing. -/
theorem legacyWithdrawal_readOnce :
    Sample.activeStore.get .provider Sample.providerKey = some Sample.legacyProvider ∧
      ¬ ReadRepeats Sample.runtime Sample.node (toHex Sample.providerKey)
        (some Sample.legacyWithdrawal) Sample.activeStore := by
  obtain ⟨hstore, hfirst, hsecond⟩ :
      Sample.activeStore.get .provider Sample.providerKey = some Sample.legacyProvider ∧
      (·.isSome) <$> (readTwice Sample.runtime Sample.node (toHex Sample.providerKey)
        (some Sample.legacyWithdrawal) Sample.activeStore).1 = .ok true ∧
      (readTwice Sample.runtime Sample.node (toHex Sample.providerKey)
        (some Sample.legacyWithdrawal) Sample.activeStore).2 = .ok none := by
    decide +kernel
  refine ⟨hstore, fun h => ?_⟩
  obtain ⟨x, hx, hsome⟩ := map_eq_ok.1 hfirst
  obtain ⟨r, rfl⟩ := Option.isSome_iff_exists.1 hsome
  cases (h.readTwice hx).symm.trans hsecond

end DecentRegistry
