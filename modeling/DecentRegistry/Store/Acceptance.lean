import DecentRegistry.Model.DurableStore
import DecentRegistry.Sample.Records

/-!
# What the store accepts

`put_if_newer` decides by the sequence number in the accepted-state metadata, and by the envelope
only where there is none; a plain `put` replaces the envelope and leaves the metadata. The two agree
in a `Coherent` store. `put_if_newer` keeps a store coherent, and so does a plain `put` of an
envelope with the sequence number already recorded, or where none is recorded; these are the runs in
which `put_if_newer` accepts exactly the newer envelopes (`putIfNewer_accepts_newer`). -/

namespace DecentRegistry

open Fallible PyValue LMDBDatastore

variable {rt : Runtime}

/-! ## Runs of the store -/

/-- The two writes of the store. -/
inductive StoreCall
  | put (kind : RecordKind) (key value : Bytes)
  | putIfNewer (w : AcceptedWrite)

/-- The store after a call, and what `put_if_newer` returns. -/
def StoreCall.run (rt : Runtime) (store : LMDBDatastore) :
    StoreCall → Py (Option Bool × LMDBDatastore)
  | .put kind key value => return (none, store.put kind key value)
  | .putIfNewer w => do
    let (accepted, store) ← store.putIfNewer rt w
    return (some accepted, store)

/-- The envelope of a write has the sequence number of the write, and its metadata and history can
be encoded. -/
structure AcceptedWrite.WellFormed (rt : Runtime) (w : AcceptedWrite) : Prop where
  seq : ∃ n, extractSeq rt w.value = some n ∧ w.seq = n
  encodes : ∃ m encodedHistory, Encodes rt w m encodedHistory

/-- The value of a call is a well-formed envelope, and its sequence number is the envelope's own. -/
def StoreCall.WellFormed (rt : Runtime) : StoreCall → Prop
  | .put _ _ value => ∃ n, extractSeq rt value = some n
  | .putIfNewer w => w.WellFormed rt

/-- Stores reached from the empty one by calls that are allowed in the store they are made in. A
call that raises leaves the store as it is. -/
inductive StoreRun (rt : Runtime) (Allowed : LMDBDatastore → StoreCall → Prop) :
    LMDBDatastore → Prop
  | empty : StoreRun rt Allowed .empty
  | call {store t : LMDBDatastore} {c : StoreCall} {r : Option Bool}
      (h : StoreRun rt Allowed store) (allowed : Allowed store c)
      (hc : c.run rt store = .ok (r, t)) : StoreRun rt Allowed t

/-- A plain `put` comes where no metadata is stored, or brings the sequence number it records. -/
def KeepsRecordedSeq (rt : Runtime) (store : LMDBDatastore) : StoreCall → Prop
  | .put kind key value => ∀ m, store.metadata kind key = some m →
      ∃ n, extractSeq rt value = some n ∧ metadataSeq rt m = some (n : Int)
  | .putIfNewer _ => True

/-- Nothing is stored for the record, or an envelope with a smaller sequence number. -/
def IsNewer (rt : Runtime) (store : LMDBDatastore) (w : AcceptedWrite) : Prop :=
  ∀ current, store.get w.kind w.key = some current →
    ∃ n, extractSeq rt current = some n ∧ (n : Int) < w.seq

/-! ## Coherence -/

/-- What is stored for a record: nothing at all, or a well-formed envelope, the metadata recording
its sequence number if there is metadata. -/
inductive CoherentEntry (rt : Runtime) : Option Bytes → Option Bytes → Prop
  | absent : CoherentEntry rt none none
  | plain {value : Bytes} {n : ℕ} (h : extractSeq rt value = some n) :
      CoherentEntry rt (some value) none
  | accepted {value m : Bytes} {n : ℕ} (h : extractSeq rt value = some n)
      (hm : metadataSeq rt m = some (n : Int)) : CoherentEntry rt (some value) (some m)

/-- Metadata and envelopes agree. -/
def LMDBDatastore.Coherent (rt : Runtime) (store : LMDBDatastore) : Prop :=
  ∀ kind key, CoherentEntry rt (store.get kind key) (store.metadata kind key)

/-- In a coherent store the decision is that of the envelope stored. -/
theorem CoherentEntry.accepts_iff {current m : Option Bytes} (h : CoherentEntry rt current m)
    (seq : Int) :
    accepts rt current m seq = true ↔
      ∀ c, current = some c → ∃ n, extractSeq rt c = some n ∧ (n : Int) < seq := by
  cases h with
  | absent => simp [accepts]
  | plain h => simp [accepts, currentSeq, h]
  | accepted h hm => simp [accepts, currentSeq, h, hm]

theorem coherent_empty : LMDBDatastore.Coherent rt .empty := by
  rintro (_ | _) key <;> exact .absent

theorem LMDBDatastore.Coherent.put {store : LMDBDatastore} (h : store.Coherent rt)
    {kind : RecordKind} {key value : Bytes} (hvalue : ∃ n, extractSeq rt value = some n)
    (hkeeps : KeepsRecordedSeq rt store (.put kind key value)) :
    (store.put kind key value).Coherent rt := by
  intro kind' key'
  rw [get_put, metadata_put]
  split
  · rename_i hsame
    obtain ⟨rfl, rfl⟩ := hsame
    obtain ⟨n, hn⟩ := hvalue
    cases hm : store.metadata kind' key' with
    | none => exact .plain hn
    | some m =>
      obtain ⟨n', hn', hm'⟩ := hkeeps m hm
      exact .accepted hn' hm'
  · exact h kind' key'

theorem LMDBDatastore.Coherent.install (hrt : rt.RoundTrips) {store : LMDBDatastore}
    (h : store.Coherent rt) {w : AcceptedWrite} {m : Bytes} {encodedHistory : Option Bytes}
    (hseq : ∃ n, extractSeq rt w.value = some n ∧ w.seq = n)
    (hw : Encodes rt w m encodedHistory) : (store.install w m encodedHistory).Coherent rt := by
  intro kind key
  rw [get_install, metadata_install]
  split
  · obtain ⟨n, hn, hseq⟩ := hseq
    exact .accepted hn (hseq ▸ metadataSeq_of_dumps hrt hw.metadata)
  · exact h kind key

/-- One call keeps the store coherent. -/
theorem LMDBDatastore.Coherent.call (hrt : rt.RoundTrips) {store t : LMDBDatastore}
    (h : store.Coherent rt) {c : StoreCall} {r : Option Bool} (hwf : c.WellFormed rt)
    (hkeeps : KeepsRecordedSeq rt store c) (hc : c.run rt store = .ok (r, t)) : t.Coherent rt := by
  cases c with
  | put kind key value =>
    simp only [StoreCall.run, pure_eq_ok, Prod.mk.injEq] at hc
    obtain ⟨-, rfl⟩ := hc
    exact h.put hwf hkeeps
  | putIfNewer w =>
    simp only [StoreCall.run, bind_eq_ok, pure_eq_ok, Prod.mk.injEq, Prod.exists] at hc
    obtain ⟨b, t', hput, -, rfl⟩ := hc
    obtain ⟨m, encodedHistory, hw, -, rfl⟩ := putIfNewer_eq_ok.1 hput
    split
    · exact h.install hrt hwf.seq hw
    · exact h

/-- **Coherence of a run.** -/
theorem StoreRun.coherent (hrt : rt.RoundTrips) {store : LMDBDatastore}
    (h : StoreRun rt (fun store c => c.WellFormed rt ∧ KeepsRecordedSeq rt store c) store) :
    store.Coherent rt := by
  induction h with
  | empty => exact coherent_empty
  | call _ allowed hc ih => exact ih.call hrt allowed.1 allowed.2 hc

/-! ## Sample stores -/

namespace Sample

/-- A write of a sample Provider Record. -/
def providerWrite (value : Bytes) (seq : ℕ) (s : Signatures) : AcceptedWrite :=
  { kind := .provider, key := providerKey, value, seq, stateHash := s.digestBytes, history := none }

def providerMetadata (seq : ℕ) (s : Signatures) : Bytes := cbor (metadataValue seq s.digestBytes)

theorem providerWrite_encodes {value : Bytes} {seq : ℕ} {s : Signatures}
    (h : (runtime.dumps (metadataValue seq s.digestBytes)).isSome = true) :
    Encodes runtime (providerWrite value seq s) (providerMetadata seq s) none where
  seq_nonneg := Int.natCast_nonneg seq
  stateHash_length := Sha256.length_bigEndian _ _
  history_ne_nil := by simp [providerWrite]
  metadata := by
    obtain ⟨m, hm⟩ := Option.isSome_iff_exists.1 h
    have hm' : Cbor.encode (metadataValue seq s.digestBytes) = some m := hm
    simp only [providerWrite, providerMetadata, cbor, hm', Option.getD_some]
    exact hm
  history := rfl

/-- The write of the genesis, and of the replacement that follows it. -/
def genesisWrite : AcceptedWrite := providerWrite providerGenesis 1 providerGenesisSignatures

def replacementWrite : AcceptedWrite :=
  providerWrite providerReplacement 2 providerReplacementSignatures

theorem genesisWrite_encodes :
    Encodes runtime genesisWrite (providerMetadata 1 providerGenesisSignatures) none :=
  providerWrite_encodes (by decide +kernel)

theorem genesisWrite_wellFormed : genesisWrite.WellFormed runtime :=
  ⟨⟨1, by decide +kernel, rfl⟩, _, _, genesisWrite_encodes⟩

theorem replacementWrite_encodes :
    Encodes runtime replacementWrite (providerMetadata 2 providerReplacementSignatures) none :=
  providerWrite_encodes (by decide +kernel)

theorem replacementWrite_wellFormed : replacementWrite.WellFormed runtime :=
  ⟨⟨2, by decide +kernel, rfl⟩, _, _, replacementWrite_encodes⟩

/-- The store after the genesis. -/
def genesisStore : LMDBDatastore :=
  LMDBDatastore.empty.install genesisWrite (providerMetadata 1 providerGenesisSignatures) none

theorem genesisStore_run {Allowed : LMDBDatastore → StoreCall → Prop}
    (h : Allowed .empty (.putIfNewer genesisWrite)) : StoreRun runtime Allowed genesisStore := by
  refine .call (c := .putIfNewer genesisWrite) (r := some true) .empty h ?_
  have hput : LMDBDatastore.empty.putIfNewer runtime genesisWrite = .ok (true, genesisStore) :=
    putIfNewer_eq_ok.2 ⟨_, _, genesisWrite_encodes, rfl, rfl⟩
  simp [StoreCall.run, hput]

/-- The store after a plain `put` of a legacy envelope with the sequence number 9 over the
genesis. -/
def staleStore : LMDBDatastore := genesisStore.put .provider providerKey foreignProvider

theorem staleStore_get : staleStore.get .provider providerKey = some foreignProvider := by
  simp [staleStore]

theorem staleStore_metadata : staleStore.metadata .provider providerKey =
    some (providerMetadata 1 providerGenesisSignatures) := by
  simp [staleStore, genesisStore, genesisWrite, providerWrite]

theorem extractSeq_foreignProvider : extractSeq runtime foreignProvider = some 9 := by
  decide +kernel

end Sample

/-! ## The decision -/

/-- **`put_if_newer` accepts exactly the newer envelopes**, in every run whose plain writes keep the
recorded sequence numbers. -/
theorem putIfNewer_accepts_newer (rt : Runtime) (hrt : rt.RoundTrips) (store : LMDBDatastore)
    (h : StoreRun rt (fun store c => c.WellFormed rt ∧ KeepsRecordedSeq rt store c) store)
    (w : AcceptedWrite) (hw : w.WellFormed rt) :
    ∃ accepted t, store.putIfNewer rt w = .ok (accepted, t) ∧
      (accepted = true ↔ IsNewer rt store w) := by
  obtain ⟨m, encodedHistory, hencodes⟩ := hw.encodes
  refine ⟨_, _, putIfNewer_eq_ok.2 ⟨m, encodedHistory, hencodes, rfl, rfl⟩, ?_⟩
  exact (h.coherent hrt w.kind w.key).accepts_iff w.seq

/-- After the genesis, the replacement is accepted. -/
theorem sampleStore_accepts_newer :
    ∃ t, Sample.genesisStore.putIfNewer Sample.runtime Sample.replacementWrite = .ok (true, t) := by
  obtain ⟨accepted, t, hput, haccepted⟩ := putIfNewer_accepts_newer Sample.runtime
    Sample.runtime_roundTrips Sample.genesisStore
    (Sample.genesisStore_run ⟨Sample.genesisWrite_wellFormed, trivial⟩) Sample.replacementWrite
    Sample.replacementWrite_wellFormed
  have hnewer : IsNewer Sample.runtime Sample.genesisStore Sample.replacementWrite := by
    intro current hcurrent
    have hget : Sample.genesisStore.get .provider Sample.providerKey =
        some Sample.providerGenesis := by
      simp [Sample.genesisStore, Sample.genesisWrite, Sample.providerWrite]
    obtain rfl := Option.some.inj (hget.symm.trans hcurrent)
    exact ⟨1, by decide +kernel, by decide⟩
  exact ⟨t, haccepted.2 hnewer ▸ hput⟩

/-- A plain `put` leaves the metadata behind: an envelope with the sequence number 2 is then
accepted over one with the sequence number 9. -/
theorem staleMetadata_accepts_older :
    StoreRun Sample.runtime (fun _ c => c.WellFormed Sample.runtime) Sample.staleStore ∧
      Sample.replacementWrite.WellFormed Sample.runtime ∧
      (∃ t, Sample.staleStore.putIfNewer Sample.runtime Sample.replacementWrite =
        .ok (true, t)) ∧
      ¬ IsNewer Sample.runtime Sample.staleStore Sample.replacementWrite := by
  refine ⟨.call (c := .put .provider Sample.providerKey Sample.foreignProvider)
    (Sample.genesisStore_run Sample.genesisWrite_wellFormed)
    ⟨9, Sample.extractSeq_foreignProvider⟩ rfl, Sample.replacementWrite_wellFormed, ?_, ?_⟩
  · refine ⟨_, putIfNewer_eq_ok.2 ⟨_, _, Sample.replacementWrite_encodes, ?_, rfl⟩⟩
    have hseq : metadataSeq Sample.runtime
        (Sample.providerMetadata 1 Sample.providerGenesisSignatures) = some 1 :=
      metadataSeq_of_dumps Sample.runtime_roundTrips Sample.genesisWrite_encodes.metadata
    simp [Sample.replacementWrite, Sample.providerWrite, Sample.staleStore_get,
      Sample.staleStore_metadata, accepts, currentSeq, hseq]
  · intro h
    obtain ⟨n, hn, hlt⟩ := h _ Sample.staleStore_get
    rw [Sample.extractSeq_foreignProvider] at hn
    obtain rfl := Option.some.inj hn
    simp [Sample.replacementWrite, Sample.providerWrite] at hlt

end DecentRegistry
