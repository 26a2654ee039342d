import DecentRegistry.Store.Acceptance

/-!
# Store calls are atomic and isolated

The metadata and the histories of both record kinds share one database, under keys built from the
kind, a separator and the record key. No two of these keys collide, so a call changes the head, the
metadata and the history of its own record only, and a call that does not accept changes nothing.
What an accepting call records decides the later comparisons of its record, whatever is called in
between (`storeCalls_isolated`).
-/

namespace DecentRegistry

open Fallible PyValue LMDBDatastore

namespace StoreCall

/-- The record a call names. -/
def record : StoreCall → RecordKind × Bytes
  | .put kind key _ => (kind, key)
  | .putIfNewer w => (w.kind, w.key)

/-- The store after a call. A call that raises leaves the store as it is. -/
def after (rt : Runtime) (store : LMDBDatastore) (c : StoreCall) : LMDBDatastore :=
  match c.run rt store with
  | .ok (_, t) => t
  | .error _ => store

/-- The call is a `put_if_newer` and returns `True`. -/
def Accepted (rt : Runtime) (store : LMDBDatastore) (c : StoreCall) : Prop :=
  ∃ t, c.run rt store = .ok (some true, t)

end StoreCall

/-- Stores reached by calls none of which accepts a new state of the record. -/
inductive Since (rt : Runtime) (kind : RecordKind) (key : Bytes) :
    LMDBDatastore → LMDBDatastore → Prop
  | refl (store : LMDBDatastore) : Since rt kind key store store
  | call {store t : LMDBDatastore} {c : StoreCall} (h : Since rt kind key store t)
      (hc : c.Accepted rt t → c.record ≠ (kind, key)) : Since rt kind key store (c.after rt t)

variable {rt : Runtime} {store t : LMDBDatastore} {c : StoreCall} {w : AcceptedWrite}

/-! ## One call -/

theorem StoreCall.run_putIfNewer {b : Bool} :
    (StoreCall.putIfNewer w).run rt store = .ok (some b, t) ↔
      store.putIfNewer rt w = .ok (b, t) := by
  simp only [StoreCall.run, bind_eq_ok, pure_eq_ok, Prod.mk.injEq, Prod.exists, Option.some.injEq]
  constructor
  · rintro ⟨_, _, h, rfl, rfl⟩
    exact h
  · intro h
    exact ⟨b, t, h, rfl, rfl⟩

/-- A call that accepts is a `put_if_newer`, and installs what it is given. -/
theorem StoreCall.Accepted.install (h : c.Accepted rt store) :
    ∃ w m encodedHistory, c = .putIfNewer w ∧ Encodes rt w m encodedHistory ∧
      c.after rt store = store.install w m encodedHistory := by
  obtain ⟨t, ht⟩ := h
  cases c with
  | put kind key value => simp [StoreCall.run] at ht
  | putIfNewer w =>
    have hput := StoreCall.run_putIfNewer.1 ht
    obtain ⟨m, encodedHistory, hw, -, rfl⟩ := putIfNewer_eq_ok.1 hput
    refine ⟨w, m, encodedHistory, rfl, hw, ?_⟩
    simp [StoreCall.after, ht]

/-- A `put_if_newer` that does not accept leaves the store as it is. -/
theorem StoreCall.after_of_not_accepted
    (h : ¬ (StoreCall.putIfNewer w).Accepted rt store) :
    (StoreCall.putIfNewer w).after rt store = store := by
  cases hrun : (StoreCall.putIfNewer w).run rt store with
  | error e => simp [StoreCall.after, hrun]
  | ok r =>
    have hr := hrun
    simp only [StoreCall.run, bind_eq_ok, pure_eq_ok, Prod.exists] at hr
    obtain ⟨b, t, hput, rfl⟩ := hr
    cases b with
    | true => exact absurd ⟨t, hrun⟩ h
    | false =>
      obtain ⟨m, encodedHistory, -, -, rfl⟩ := putIfNewer_eq_ok.1 hput
      simp [StoreCall.after, hrun]

/-- **What a call can do**: put an envelope, install an accepted one, or nothing. -/
theorem StoreCall.after_cases (rt : Runtime) (store : LMDBDatastore) (c : StoreCall) :
    (∃ kind key value, c = .put kind key value ∧ c.after rt store = store.put kind key value) ∨
    (c.Accepted rt store ∧ ∃ w m encodedHistory, c = .putIfNewer w ∧
      Encodes rt w m encodedHistory ∧ c.after rt store = store.install w m encodedHistory) ∨
    (¬ c.Accepted rt store ∧ c.after rt store = store) := by
  cases c with
  | put kind key value => exact .inl ⟨kind, key, value, rfl, rfl⟩
  | putIfNewer w =>
    by_cases hacc : (StoreCall.putIfNewer w).Accepted rt store
    · exact .inr (.inl ⟨hacc, hacc.install⟩)
    · exact .inr (.inr ⟨hacc, StoreCall.after_of_not_accepted hacc⟩)

/-- A call changes nothing of another record. -/
theorem StoreCall.after_other (rt : Runtime) (store : LMDBDatastore) {kind : RecordKind}
    {key : Bytes} (h : c.record ≠ (kind, key)) :
    (c.after rt store).get kind key = store.get kind key ∧
      (c.after rt store).metadata kind key = store.metadata kind key ∧
      (c.after rt store).getHistory rt kind key = store.getHistory rt kind key := by
  rcases StoreCall.after_cases rt store c with ⟨kind', key', value, rfl, hafter⟩ |
    ⟨-, w, m, encodedHistory, rfl, -, hafter⟩ | ⟨-, hafter⟩
  · have hne : ¬ (kind = kind' ∧ key = key') := by
      rintro ⟨rfl, rfl⟩
      exact h rfl
    rw [hafter, get_put, metadata_put, getHistory_put, if_neg hne]
    exact ⟨rfl, rfl, rfl⟩
  · have hne : ¬ (kind = w.kind ∧ key = w.key) := by
      rintro ⟨rfl, rfl⟩
      exact h rfl
    rw [hafter, get_install, metadata_install, getHistory_install]
    simp only [if_neg hne, and_self]
  · rw [hafter]
    exact ⟨rfl, rfl, rfl⟩

/-- A call that accepts leaves the given envelope and history, and metadata with the given sequence
number. -/
theorem StoreCall.Accepted.reads (hrt : rt.RoundTrips)
    (h : (StoreCall.putIfNewer w).Accepted rt store) :
    let t := (StoreCall.putIfNewer w).after rt store
    t.get w.kind w.key = some w.value ∧ t.getHistory rt w.kind w.key = w.history ∧
      ∃ m, t.metadata w.kind w.key = some m ∧ metadataSeq rt m = some w.seq := by
  intro t
  obtain ⟨w', m, encodedHistory, hw', hencodes, ht⟩ := h.install
  obtain rfl : w = w' := StoreCall.putIfNewer.inj hw'
  have hhistory : encodedHistory.bind (decodeHistory rt) = w.history := by
    have hmap := hencodes.history
    cases hw : w.history with
    | none =>
      have hnone : encodedHistory = none := by simpa [hw, eq_comm] using hmap
      rw [hnone, Option.bind_none]
    | some history =>
      have hne : history ≠ [] := by
        intro hnil
        exact hencodes.history_ne_nil (by rw [hw, hnil])
      obtain ⟨encoded, hsome, hdumps⟩ : ∃ encoded, encodedHistory = some encoded ∧
          rt.dumps (historyValue history) = some encoded := by
        cases encodedHistory with
        | none => simp [hw] at hmap
        | some encoded => exact ⟨encoded, rfl, by simpa [hw] using hmap⟩
      rw [hsome, Option.bind_some, decodeHistory_of_dumps hrt hne hdumps]
  have hseq : metadataSeq rt m = some w.seq := metadataSeq_of_dumps hrt hencodes.metadata
  simp only [t, ht, get_install, metadata_install, getHistory_install, and_self, if_true]
  exact ⟨trivial, hhistory, m, rfl, hseq⟩

/-! ## Later comparisons -/

/-- An envelope is stored, and metadata with the sequence number `seq`. -/
def RecordsSeq (rt : Runtime) (store : LMDBDatastore) (kind : RecordKind)
    (key : Bytes) (seq : Int) :
    Prop :=
  (store.get kind key).isSome ∧
    ∃ m, store.metadata kind key = some m ∧ metadataSeq rt m = some seq

variable {kind : RecordKind} {key : Bytes} {seq : Int}

/-- A call that does not accept a new state of the record keeps what is recorded of it. -/
theorem RecordsSeq.call (h : RecordsSeq rt store kind key seq)
    (hc : c.Accepted rt store → c.record ≠ (kind, key)) :
    RecordsSeq rt (c.after rt store) kind key seq := by
  obtain ⟨hsome, m, hm, hseq⟩ := h
  rcases StoreCall.after_cases rt store c with ⟨kind', key', value, -, hafter⟩ |
    ⟨hacc, -⟩ | ⟨-, hafter⟩
  · -- A plain `put` replaces the head, but not the metadata.
    refine ⟨?_, m, ?_, hseq⟩
    · rw [hafter, get_put]
      split
      · rfl
      · exact hsome
    · rw [hafter, metadata_put]
      exact hm
  · obtain ⟨hget, hmeta, -⟩ := StoreCall.after_other rt store (hc hacc)
    exact ⟨hget ▸ hsome, m, hmeta ▸ hm, hseq⟩
  · rw [hafter]
    exact ⟨hsome, m, hm, hseq⟩

/-- **What is recorded stays**, over every run of calls that accept no new state of the record. -/
theorem RecordsSeq.since (h : RecordsSeq rt store kind key seq) (hs : Since rt kind key store t) :
    RecordsSeq rt t kind key seq := by
  induction hs with
  | refl => exact h
  | call _ hc ih => exact ih.call hc

/-- Where a sequence number is recorded, it decides `put_if_newer`. -/
theorem RecordsSeq.accepts (h : RecordsSeq rt store kind key seq) (seq' : Int) :
    accepts rt (store.get kind key) (store.metadata kind key) seq' = decide (seq < seq') := by
  obtain ⟨hsome, m, hm, hseq⟩ := h
  obtain ⟨current, hcurrent⟩ := Option.isSome_iff_exists.1 hsome
  have hcurrentSeq : currentSeq rt current (some m) = some seq := by
    simp [currentSeq, hseq]
  simp only [LMDBDatastore.accepts, hcurrent, hm, hcurrentSeq]

/-! ## Isolation -/

/-- **Store calls are atomic and isolated.** In every store, a call leaves the head and the history
of every other record; a `put_if_newer` that does not return `True` leaves the store as it is; one
that does leaves the given envelope and the given history, and every later `put_if_newer` of the
record that returns is decided by the given sequence number, until one returns `True`. -/
theorem storeCalls_isolated (rt : Runtime) (hrt : rt.RoundTrips) (store : LMDBDatastore)
    (c : StoreCall) :
    (∀ kind key, (kind, key) ≠ c.record →
      (c.after rt store).get kind key = store.get kind key ∧
      (c.after rt store).getHistory rt kind key = store.getHistory rt kind key) ∧
    ∀ w, c = .putIfNewer w →
      (¬ c.Accepted rt store → c.after rt store = store) ∧
      (c.Accepted rt store →
        (c.after rt store).get w.kind w.key = some w.value ∧
        (c.after rt store).getHistory rt w.kind w.key = w.history ∧
        ∀ t, Since rt w.kind w.key (c.after rt store) t →
          ∀ w' b t', w'.kind = w.kind → w'.key = w.key → t.putIfNewer rt w' = .ok (b, t') →
            (b = true ↔ w.seq < w'.seq)) := by
  refine ⟨?_, ?_⟩
  · intro kind key hne
    obtain ⟨hget, -, hhistory⟩ := StoreCall.after_other rt store hne.symm
    exact ⟨hget, hhistory⟩
  · rintro w rfl
    refine ⟨StoreCall.after_of_not_accepted, ?_⟩
    intro hacc
    obtain ⟨hget, hhistory, m, hm, hseq⟩ := hacc.reads hrt
    refine ⟨hget, hhistory, ?_⟩
    intro t hs w' b t' hkind hkey hput
    have hrecords : RecordsSeq rt ((StoreCall.putIfNewer w).after rt store) w.kind w.key w.seq :=
      ⟨by rw [hget]; rfl, m, hm, hseq⟩
    obtain ⟨-, -, -, hb, -⟩ := putIfNewer_eq_ok.1 hput
    rw [hkind, hkey, (hrecords.since hs).accepts] at hb
    rw [hb, decide_eq_true_iff]

/-- The genesis is stored in the empty store, and a replacement is then accepted over it. -/
theorem sampleGenesis_isolated :
    let t := (StoreCall.putIfNewer Sample.genesisWrite).after Sample.runtime .empty
    let w := Sample.genesisWrite
    t.get w.kind w.key = some w.value ∧
      t.getHistory Sample.runtime w.kind w.key = w.history ∧
      ∃ u, t.putIfNewer Sample.runtime Sample.replacementWrite = .ok (true, u) := by
  intro t w
  have hput : LMDBDatastore.empty.putIfNewer Sample.runtime Sample.genesisWrite =
      .ok (true, Sample.genesisStore) :=
    putIfNewer_eq_ok.2 ⟨_, _, Sample.genesisWrite_encodes, rfl, rfl⟩
  have hacc : (StoreCall.putIfNewer Sample.genesisWrite).Accepted Sample.runtime .empty :=
    ⟨Sample.genesisStore, StoreCall.run_putIfNewer.2 hput⟩
  obtain ⟨hget, hhistory, hlater⟩ :=
    ((storeCalls_isolated Sample.runtime Sample.runtime_roundTrips .empty
      (.putIfNewer Sample.genesisWrite)).2 Sample.genesisWrite rfl).2 hacc
  obtain ⟨b, u, hu⟩ : ∃ b u, t.putIfNewer Sample.runtime Sample.replacementWrite = .ok (b, u) :=
    ⟨_, _, putIfNewer_eq_ok.2 ⟨_, _, Sample.replacementWrite_encodes, rfl, rfl⟩⟩
  have hkind : Sample.replacementWrite.kind = Sample.genesisWrite.kind := by
    simp only [Sample.replacementWrite, Sample.genesisWrite, Sample.providerWrite]
  have hkey : Sample.replacementWrite.key = Sample.genesisWrite.key := by
    simp only [Sample.replacementWrite, Sample.genesisWrite, Sample.providerWrite]
  have hseq : Sample.genesisWrite.seq < Sample.replacementWrite.seq := by
    simp [Sample.replacementWrite, Sample.genesisWrite, Sample.providerWrite]
  have hb : b = true := (hlater t (.refl t) Sample.replacementWrite b u hkind hkey hu).2 hseq
  exact ⟨hget, hhistory, u, hb ▸ hu⟩

end DecentRegistry
