import DecentRegistry.Dht.Quiet

/-!
# A call by itself

What one call does when no other call writes the durable store while it is suspended: `Environment`
has the answers, and the computed run `run env.answer` is the call. The methods on the durable store
are synchronous, and each is a relation between the store before and after (`Caches`, `Installs`).
-/

namespace DecentRegistry

open Fallible PyValue Coroutine

/-- The answers to the requests of a call, none of which changes the durable store. -/
structure Environment where
  answer : (q : Request) → DhtState → Py q.Answer × DhtState
  keepsDurable : ∀ q s, (answer q s).2.durable = s.durable

/-- The DHT has one value for every key, and everything else is answered at once. -/
def Environment.constantly (value : Option Bytes) : Environment where
  answer
    | .acceptedLock, s | .putValue _ _ _, s => (.ok (), s)
    | .getValue _ _, s | .readerEnvelope _, s | .peerEnvelope _ _, s | .peerHistory _ _, s =>
      (.ok value, s)
  keepsDurable q s := by cases q <;> rfl

/-- A quiet method changes no durable store in such an environment. -/
theorem Quiet.run_durable {α : Type} {p : Dht α} {Φ : α → Prop} (h : Quiet p Φ)
    (env : Environment) (s : DhtState) : (run env.answer p s).2.durable = s.durable := by
  let c : Contract DhtState Request Request.Answer PyError :=
    ⟨fun _ s _ t => SameDurable s t, SameDurable⟩
  have hruns : Runs c.rely p s (run env.answer p s).1 (run env.answer p s).2 :=
    runs_run _ _ env.keepsDurable p s
  exact (hruns.sound (h.wp sameDurable_refl sameDurable_trans (fun _ _ h => ⟨h, h⟩)
    (fun _ _ _ _ h => h) s)).1

theorem Quiet.durable_eq {α : Type} {p : Dht α} {Φ : α → Prop} {env : Environment} {s t : DhtState}
    {x : Py α} (hp : Quiet p Φ) (h : run env.answer p s = (x, t)) : t.durable = s.durable := by
  have := hp.run_durable env s
  rwa [h] at this

variable (rt : Runtime) (d : DhtInstance)

/-! ## The durable store -/

/-- `_durable_get` on a store. -/
def headIn (D : LMDBDatastore) (kind : RecordKind) (key : Bytes) : Option Bytes :=
  if d.durableStore.isNone then none else D.get kind key

/-- `_durable_history` on a store. -/
def historyIn (D : LMDBDatastore) (kind : RecordKind) (key : Bytes) : Option (List Bytes) :=
  if d.durableStore.any (·.hasGetHistory) then D.getHistory rt kind key else none

/-- What a returning `_durable_cache` does to the store. -/
inductive Caches (kind : RecordKind) (key value : Bytes) (result : ResultAttributes)
    (history : Option (List Bytes)) (D : LMDBDatastore) : LMDBDatastore → Prop
  | noStore (h : d.durableStore = none) : Caches kind key value result history D D
  | plain {backend : StorageBackend} {recorded : ℕ × Bytes} (h : d.durableStore = some backend)
      (hplain : backend.hasPutIfNewer = false)
      (hrecorded : resultSeqAndStateHash rt result value = .ok recorded) :
      Caches kind key value result history D (D.put kind key value)
  | ifNewer {backend : StorageBackend} {seq : ℕ} {stateHash : Bytes} {written : Bool}
      {D' : LMDBDatastore} (h : d.durableStore = some backend)
      (hplain : backend.hasPutIfNewer = true)
      (hrecorded : resultSeqAndStateHash rt result value = .ok (seq, stateHash))
      (hput : D.putIfNewer rt { kind, key, value, seq, stateHash, history } = .ok (written, D')) :
      Caches kind key value result history D D'

variable {rt d} {answer : (q : Request) → DhtState → Py q.Answer × DhtState} {s t : DhtState}
  {kind : RecordKind} {key value : Bytes}

theorem headIn_eq (hd : d.durableStore.isSome = true) (D : LMDBDatastore) :
    headIn d D kind key = D.get kind key := by
  obtain ⟨backend, hd⟩ := Option.isSome_iff_exists.1 hd
  simp [headIn, hd]

theorem run_durableGet :
    run answer (durableGet d kind key) s = (.ok (headIn d s.durable kind key), s) := by
  unfold durableGet headIn
  split
  · rfl
  · exact run_reads_eq_ok.2 ⟨rfl, rfl⟩

theorem run_durableHistory :
    run answer (durableHistory rt d kind key) s = (.ok (historyIn rt d s.durable kind key), s) := by
  unfold durableHistory historyIn
  cases d.durableStore with
  | none => rfl
  | some backend =>
    cases h : backend.hasGetHistory with
    | false => simp only [Option.any_some, h, Bool.false_eq_true, if_false]; rfl
    | true =>
      simp only [Option.any_some, h, if_true]
      exact run_reads_eq_ok.2 ⟨rfl, rfl⟩

theorem run_storePutIfNewer_eq_ok {w : AcceptedWrite} {written : Bool} :
    run answer (storePutIfNewer rt w) s = (.ok written, t) ↔
      ∃ D, s.durable.putIfNewer rt w = .ok (written, D) ∧ t = { s with durable := D } := by
  simp only [storePutIfNewer, run_transact]
  split
  · rename_i accepted durable h
    simp [h, eq_comm]
  · rename_i e h
    simp [h]

/-- **What `_durable_cache` does.** -/
theorem run_durableCache_eq_ok {result : ResultAttributes} {history : Option (List Bytes)}
    {u : Unit} :
    run answer (durableCache rt d kind key value result history) s = (.ok u, t) ↔
      ∃ D, Caches rt d kind key value result history s.durable D ∧ t = { s with durable := D } := by
  cases u
  unfold durableCache
  split
  · rename_i hd
    simp only [run_pure_eq_ok, true_and]
    constructor
    · rintro rfl
      exact ⟨_, .noStore hd, rfl⟩
    · rintro ⟨D, hcaches, rfl⟩
      cases hcaches with
      | noStore => rfl
      | plain h => simp [hd] at h
      | ifNewer h => simp [hd] at h
  · rename_i backend hd
    cases hplain : backend.hasPutIfNewer with
    | false =>
      simp only [run_bind_eq_ok, run_lift_eq_ok, Bool.not_false, if_true, storePut,
        run_modify_eq_ok]
      constructor
      · rintro ⟨recorded, _, ⟨hrecorded, rfl⟩, rfl⟩
        exact ⟨_, .plain hd hplain hrecorded, rfl⟩
      · rintro ⟨D, hcaches, rfl⟩
        cases hcaches with
        | noStore h => simp [hd] at h
        | plain h _ hrecorded => exact ⟨_, s, ⟨hrecorded, rfl⟩, rfl⟩
        | ifNewer h h' =>
          obtain rfl := Option.some.inj (hd.symm.trans h)
          simp [hplain] at h'
    | true =>
      simp only [run_bind_eq_ok, run_lift_eq_ok, Bool.not_true, Bool.false_eq_true, if_false,
        run_storePutIfNewer_eq_ok, run_pure_eq_ok]
      constructor
      · rintro ⟨⟨seq, stateHash⟩, _, ⟨hrecorded, rfl⟩, written, _, ⟨D, hput, rfl⟩, -, rfl⟩
        exact ⟨D, .ifNewer hd hplain hrecorded hput, rfl⟩
      · rintro ⟨D, hcaches, rfl⟩
        cases hcaches with
        | noStore h => simp [hd] at h
        | plain h h' =>
          obtain rfl := Option.some.inj (hd.symm.trans h)
          simp [hplain] at h'
        | ifNewer h _ hrecorded hput =>
          exact ⟨_, s, ⟨hrecorded, rfl⟩, _, _, ⟨D, hput, rfl⟩, trivial, rfl⟩

end DecentRegistry
