import DecentRegistry.Model.Dht.Calls
import DecentRegistry.Sample.Records

/-!
# A sample instance

An instance of the DHT adapter with a complete durable store and no configured peers, and answers in
which the DHT has one value for every key.
-/

namespace DecentRegistry.Sample

open PyValue Coroutine

def node : DhtInstance :=
  { durableStore := some ⟨true, true⟩, hasRemoteIdentityReader := false, localPeerId := [],
    peerId := fun _ => none }

/-- An instance over a durable store, with nothing in its value store. -/
def stateOver (durable : LMDBDatastore) : DhtState :=
  { durable, acceptedLock := false,
    surroundings :=
      { valueStore := fun _ => none, clock := 0, serverMode := true, bootstrapPeers := [] } }

/-- The DHT answers every read with the same value, and the lock is given when it is free. -/
def answers (value : Option Bytes) : (q : Request) → DhtState → Py q.Answer × DhtState
  | .acceptedLock, s =>
    if s.acceptedLock then (.error ⟨.cancelled, ""⟩, s)
      else (.ok (), { s with acceptedLock := true })
  | .putValue _ _ _, s => (.ok (), s)
  | .getValue _ _, s => (.ok value, s)
  | .readerEnvelope _, s | .peerEnvelope _ _, s | .peerHistory _ _, s => (.ok none, s)

theorem answered_answers (value : Option Bytes) (q : Request) (s : DhtState) :
    Answered q s (answers value q s).1 (answers value q s).2 := by
  cases q with
  | acceptedLock =>
    dsimp only [answers]
    split
    · exact ⟨rfl, rfl⟩
    · rename_i hfree
      exact ⟨Bool.eq_false_iff.2 hfree, rfl⟩
  | putValue => exact ⟨rfl, rfl⟩
  | getValue => exact ⟨rfl, rfl⟩
  | readerEnvelope => exact ⟨rfl, rfl⟩
  | peerEnvelope => exact ⟨rfl, rfl⟩
  | peerHistory => exact ⟨rfl, rfl⟩

/-- A read of the key of a record, while its head is the given one. -/
def readsOver (kind : RecordKind) (recordKey head : Bytes) : Request → DhtState → Bool
  | .getValue key _, s =>
    key = kadKey (toHex recordKey) kind && s.durable.get kind recordKey = some head
  | _, _ => false

theorem readsOver_inv {kind : RecordKind} {recordKey head : Bytes} {q : Request} {s : DhtState}
    (h : readsOver kind recordKey head q s = true) :
    (∃ quorum, q = .getValue (kadKey (toHex recordKey) kind) quorum) ∧
      s.durable.get kind recordKey = some head := by
  cases q with
  | getValue key quorum =>
    simp only [readsOver, Bool.and_eq_true, decide_eq_true_eq] at h
    exact ⟨⟨quorum, by rw [h.1]⟩, h.2⟩
  | _ => cases h

/-- The DHT has a value for one record, as long as its head is the given one, and no other. -/
def answersOver (kind : RecordKind) (recordKey head value : Bytes) (q : Request) (s : DhtState) :
    Py q.Answer × DhtState :=
  answers (if readsOver kind recordKey head q s then some value else none) q s

theorem answered_answersOver (kind : RecordKind) (recordKey head value : Bytes) (q : Request)
    (s : DhtState) :
    Answered q s (answersOver kind recordKey head value q s).1
      (answersOver kind recordKey head value q s).2 :=
  answered_answers _ q s

/-- The state after a call with the given answers. -/
def afterAnswers (answer : (q : Request) → DhtState → Py q.Answer × DhtState) (call : DhtCall)
    (s : DhtState) : DhtState :=
  (run answer (call.task runtime node) s).2

/-- The state after a call in which the DHT has the value for every key. -/
def after (value : Option Bytes) : DhtCall → DhtState → DhtState := afterAnswers (answers value)

section Serial

variable {calls : DhtState → DhtCall → Prop}
  {allowed : (q : Request) → DhtState → Py q.Answer → Prop}

theorem serial_afterAnswers {answer : (q : Request) → DhtState → Py q.Answer × DhtState}
    (h : ∀ q s, allowed q s (answer q s).1)
    (hanswered : ∀ q s, Answered q s (answer q s).1 (answer q s).2) (call : DhtCall) (s : DhtState)
    (hcall : calls s call) :
    Serial (dhtSchedule runtime node calls allowed) s (afterAnswers answer call s) :=
  .single (.call ⟨call, hcall, rfl⟩
    (runs_run _ _ (fun q s => ⟨h q s, hanswered q s⟩) _ _))

theorem serial_after {value : Option Bytes} (h : ∀ q s, allowed q s (answers value q s).1)
    (call : DhtCall) (s : DhtState) (hcall : calls s call) :
    Serial (dhtSchedule runtime node calls allowed) s (after value call s) :=
  serial_afterAnswers h (answered_answers value) call s hcall

end Serial

/-- The store of an instance that published the legacy Provider Record of `a`. -/
def activeStore : LMDBDatastore :=
  (after none (.putProvider (toHex providerKey) legacyProvider) (stateOver .empty)).durable

/-- The store of an instance that published that record, and then its withdrawal. -/
def withdrawnStore : LMDBDatastore :=
  (after (some legacyProvider) (.putProvider (toHex providerKey) legacyWithdrawal)
    (stateOver activeStore)).durable

/-- The store of an instance that published the legacy Identity of `a`, and then its upgrade. -/
def upgradedStore : LMDBDatastore :=
  (after none (.putIdentity (toHex identityKey) upgrade)
    (after none (.putIdentity (toHex identityKey) legacyIdentity) (stateOver .empty))).durable

end DecentRegistry.Sample
