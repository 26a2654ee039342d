import DecentRegistry.Model.Encoding
import Mathlib.Logic.Function.Basic

/-!
# The durable store

`durable_store.py`: an `LMDBDatastore` has one database of envelopes for each record kind, and a
database of accepted-state metadata and histories. The LMDB environment is a transactional map from
byte strings to byte strings, which `Database` is; a call that raises leaves it as it was.
-/

namespace DecentRegistry

open Fallible PyValue

/-- A named database. -/
abbrev Database := Bytes → Option Bytes

/-- `LMDBDatastore`. -/
structure LMDBDatastore where
  providerDb : Database
  identityDb : Database
  acceptedDb : Database

/-- The record kind as `kind` names it. -/
def RecordKind.text : RecordKind → Text
  | .identity => "identity".toList
  | .provider => "provider".toList

/-- `value[n]`, for a value a decoder returned. -/
def subscript (value : Value) (n : ℕ) : Option Value :=
  match value with
  | .dict d => Dict.get? d n
  | .list xs => xs[n]?
  | .atom (.bytes b) => b[n]?.map fun x => natValue x.toNat
  | .atom (.text t) => t[n]?.map fun c => .atom (.text [c])
  | _ => none

/-- The arguments of `put_if_newer`. -/
structure AcceptedWrite where
  kind : RecordKind
  key : Bytes
  value : Bytes
  seq : Int
  stateHash : Bytes
  history : Option (List Bytes)

namespace LMDBDatastore

def empty : LMDBDatastore := ⟨fun _ => none, fun _ => none, fun _ => none⟩

/-- `_provider_db` or `_identity_db`. -/
def db (store : LMDBDatastore) : RecordKind → Database
  | .provider => store.providerDb
  | .identity => store.identityDb

def setDb (store : LMDBDatastore) (kind : RecordKind) (database : Database) : LMDBDatastore :=
  match kind with
  | .provider => { store with providerDb := database }
  | .identity => { store with identityDb := database }

/-- `put`. -/
def put (store : LMDBDatastore) (kind : RecordKind) (key value : Bytes) : LMDBDatastore :=
  store.setDb kind (Function.update (store.db kind) key (some value))

/-- `get`. -/
def get (store : LMDBDatastore) (kind : RecordKind) (key : Bytes) : Option Bytes :=
  store.db kind key

/-- `_metadata_key`. The separator is the four characters of the literal `b"\\x00"`. -/
def metadataKey (kind : RecordKind) (key : Bytes) : Bytes :=
  utf8 kind.text ++ utf8 "\\x00".toList ++ key

/-- `_history_key`. -/
def historyKey (kind : RecordKind) (key : Bytes) : Bytes :=
  utf8 "history:".toList ++ metadataKey kind key

variable (rt : Runtime)

/-- `_extract_seq`. -/
def extractSeq (value : Bytes) : Option ℕ := do
  let envelope ← (← rt.loads value).asDict?
  let signedUpdateBytes ←
    if envelope.keysAre [1, 2] then envelope.get? 1
    else if envelope.keysAre [1, 2, 3] then envelope.get? 2
    else none
  let signedUpdate ← rt.loads (← signedUpdateBytes.asBytes?)
  let seq ← (← subscript signedUpdate 3).asInt?
  if seq < 0 then none else some seq.toNat

/-- The history `get_history` decodes: a non-empty list of byte strings, canonically encoded. -/
def decodeHistory (encoded : Bytes) : Option (List Bytes) := do
  let history ← rt.loads encoded
  if rt.dumps history ≠ some encoded then none
  let items ← history.asList?
  if items.isEmpty then none
  items.mapM Value.asBytes?

/-- `get_history`. -/
def getHistory (store : LMDBDatastore) (kind : RecordKind) (key : Bytes) : Option (List Bytes) :=
  (store.acceptedDb (historyKey kind key)).bind (decodeHistory rt)

/-- The sequence number of accepted-state metadata `{1: seq, 2: state_hash}`. -/
def metadataSeq (metadata : Bytes) : Option Int := do
  let decoded ← (← rt.loads metadata).asDict?
  if decoded.keysAre [1, 2] then (← decoded.get? 1).asInt? else none

/-- The sequence number `put_if_newer` takes a stored envelope to have. -/
def currentSeq (current : Bytes) (currentMetadata : Option Bytes) : Option Int :=
  match currentMetadata.bind (metadataSeq rt) with
  | some seq => some seq
  | none => (extractSeq rt current).map fun seq => (seq : Int)

/-- `put_if_newer` writes, given what is stored. -/
def accepts (current currentMetadata : Option Bytes) (seq : Int) : Bool :=
  match current with
  | some current =>
    match currentSeq rt current currentMetadata with
    | some currentSeq => currentSeq < seq
    | none => false
  | none => currentMetadata.isNone

/-- `{1: seq, 2: state_hash}`. -/
def metadataValue (seq : Int) (stateHash : Bytes) : Value :=
  .dict [(.int 1, .atom (.int seq)), (.int 2, .atom (.bytes stateHash))]

def historyValue (history : List Bytes) : Value := .list (history.map fun e => .atom (.bytes e))

/-- The writes of one `put_if_newer` transaction. -/
def install (store : LMDBDatastore) (w : AcceptedWrite) (metadata : Bytes)
    (encodedHistory : Option Bytes) : LMDBDatastore :=
  let written := store.put w.kind w.key w.value
  { written with
    acceptedDb := Function.update
      (Function.update written.acceptedDb (metadataKey w.kind w.key) (some metadata))
      (historyKey w.kind w.key) encodedHistory }

/-- `put_if_newer`: whether it wrote, and the store after it. -/
def putIfNewer (store : LMDBDatastore) (w : AcceptedWrite) : Py (Bool × LMDBDatastore) := do
  raiseIf (w.seq < 0) (valueError "seq must be a non-negative integer")
  raiseIf (w.stateHash.length ≠ 32) (valueError "state_hash must be exactly 32 bytes")
  raiseIf (w.history = some [])
    (valueError "history must be a non-empty sequence of byte envelopes")
  let metadata ← canonicalCbor rt (metadataValue w.seq w.stateHash)
  let encodedHistory ← (match w.history with
    | none => return none
    | some history => some <$> canonicalCbor rt (historyValue history) : Py (Option Bytes))
  let current := store.get w.kind w.key
  let currentMetadata := store.acceptedDb (metadataKey w.kind w.key)
  if accepts rt current currentMetadata w.seq then
    return (true, store.install w metadata encodedHistory)
  else return (false, store)

/-! ## Reading a store that was written -/

variable {rt} {store : LMDBDatastore} {kind : RecordKind} {key value : Bytes}

@[simp] theorem get_put (kind' : RecordKind) (key' : Bytes) :
    (store.put kind key value).get kind' key' =
      if kind' = kind ∧ key' = key then some value else store.get kind' key' := by
  cases kind <;> cases kind' <;>
    simp [put, get, db, setDb, Function.update_apply]

@[simp] theorem acceptedDb_put : (store.put kind key value).acceptedDb = store.acceptedDb := by
  cases kind <;> rfl

theorem metadataKey_eq (kind : RecordKind) (key : Bytes) :
    metadataKey kind key = (match kind with
      | .identity => [105, 100, 101, 110, 116, 105, 116, 121, 92, 120, 48, 48]
      | .provider => [112, 114, 111, 118, 105, 100, 101, 114, 92, 120, 48, 48]) ++ key := by
  cases kind <;> rfl

theorem historyKey_eq (kind : RecordKind) (key : Bytes) :
    historyKey kind key = [104, 105, 115, 116, 111, 114, 121, 58] ++ metadataKey kind key := rfl

theorem metadataKey_injective {kind' : RecordKind} {key' : Bytes} :
    metadataKey kind key = metadataKey kind' key' ↔ kind = kind' ∧ key = key' := by
  cases kind <;> cases kind' <;> simp [metadataKey_eq]

theorem historyKey_injective {kind' : RecordKind} {key' : Bytes} :
    historyKey kind key = historyKey kind' key' ↔ kind = kind' ∧ key = key' := by
  simp [historyKey_eq, metadataKey_injective]

/-- Metadata and histories have different keys. -/
theorem metadataKey_ne_historyKey (kind' : RecordKind) (key' : Bytes) :
    metadataKey kind key ≠ historyKey kind' key' := by
  cases kind <;> simp [metadataKey_eq, historyKey_eq]

/-- The accepted-state metadata of a record. -/
def metadata (store : LMDBDatastore) (kind : RecordKind) (key : Bytes) : Option Bytes :=
  store.acceptedDb (metadataKey kind key)

@[simp] theorem metadata_put (kind' : RecordKind) (key' : Bytes) :
    (store.put kind key value).metadata kind' key' = store.metadata kind' key' := by
  simp [metadata]

@[simp] theorem getHistory_put (kind' : RecordKind) (key' : Bytes) :
    (store.put kind key value).getHistory rt kind' key' = store.getHistory rt kind' key' := by
  simp [getHistory]

/-- The metadata of a write is read back. -/
theorem metadataSeq_of_dumps (hrt : rt.RoundTrips) {seq : Int} {stateHash m : Bytes}
    (h : rt.dumps (metadataValue seq stateHash) = some m) : metadataSeq rt m = some seq := by
  have hplain : Plain (metadataValue seq stateHash) := by
    refine @Plain.dict [(1, .atom (.int seq)), (2, .atom (.bytes stateHash))] (by simp) ?_
    simp only [List.mem_cons, List.not_mem_nil, or_false]
    rintro e (rfl | rfl)
    · exact .int seq
    · exact .bytes stateHash
  simp [metadataSeq, hrt _ _ hplain h, metadataValue, Value.asDict?, Dict.keysAre, Dict.has,
    Value.asInt?]

/-- A list of byte strings is written as a history. -/
theorem historyValue_of_mapM {items : List Value} {history : List Bytes}
    (h : items.mapM Value.asBytes? = some history) : Value.list items = historyValue history := by
  induction items generalizing history with
  | nil =>
    obtain rfl : [] = history := by simpa using h
    rfl
  | cons v items ih =>
    simp only [List.mapM_cons, Option.bind_eq_bind, Option.bind_eq_some_iff, Option.pure_def,
      Option.some.injEq, Value.asBytes?_eq_some] at h
    obtain ⟨e, rfl, rest, hrest, rfl⟩ := h
    have := ih hrest
    simp only [historyValue, Value.list.injEq, List.map_cons, List.cons.injEq] at this ⊢
    exact ⟨trivial, this⟩

/-- The items of a history are its byte strings. -/
theorem mapM_historyValue (history : List Bytes) :
    (history.map fun e => Value.atom (.bytes e)).mapM Value.asBytes? = some history := by
  rw [List.mapM_map]
  exact List.mapM_pure.trans (congrArg some (List.map_id history))

/-- The history of a write is read back. -/
theorem decodeHistory_of_dumps (hrt : rt.RoundTrips) {history : List Bytes} {encoded : Bytes}
    (hne : history ≠ []) (h : rt.dumps (historyValue history) = some encoded) :
    decodeHistory rt encoded = some history := by
  have hplain : Plain (historyValue history) := by
    refine .list fun v hv => ?_
    obtain ⟨e, -, rfl⟩ := List.mem_map.1 hv
    exact .bytes e
  rw [decodeHistory, hrt _ _ hplain h]
  simp only [Option.bind_eq_bind, Option.bind_some, h, ne_eq, not_true_eq_false, if_false]
  simp only [historyValue, Value.asList?, Option.bind_some, mapM_historyValue]
  rw [if_neg (by simp [hne])]

section Install

variable (w : AcceptedWrite) (m : Bytes) (encodedHistory : Option Bytes)

@[simp] theorem get_install (kind' : RecordKind) (key' : Bytes) :
    (store.install w m encodedHistory).get kind' key' =
      if kind' = w.kind ∧ key' = w.key then some w.value else store.get kind' key' := by
  rw [← get_put]
  cases kind' <;> rfl

@[simp] theorem metadata_install (kind' : RecordKind) (key' : Bytes) :
    (store.install w m encodedHistory).metadata kind' key' =
      if kind' = w.kind ∧ key' = w.key then some m else store.metadata kind' key' := by
  simp [install, metadata, Function.update_apply, metadataKey_ne_historyKey,
    metadataKey_injective]

@[simp] theorem getHistory_install (kind' : RecordKind) (key' : Bytes) :
    (store.install w m encodedHistory).getHistory rt kind' key' =
      if kind' = w.kind ∧ key' = w.key then encodedHistory.bind (decodeHistory rt)
      else store.getHistory rt kind' key' := by
  simp only [install, getHistory, Function.update_apply, historyKey_injective,
    (metadataKey_ne_historyKey _ _).symm, if_false, acceptedDb_put]
  split <;> rfl

end Install

/-- The arguments `put_if_newer` accepts, with what it stores beside the envelope. -/
structure Encodes (rt : Runtime) (w : AcceptedWrite) (m : Bytes) (encodedHistory : Option Bytes) :
    Prop where
  seq_nonneg : 0 ≤ w.seq
  stateHash_length : w.stateHash.length = 32
  history_ne_nil : w.history ≠ some []
  metadata : rt.dumps (metadataValue w.seq w.stateHash) = some m
  history : w.history.map (fun h => rt.dumps (historyValue h)) = encodedHistory.map some

theorem putIfNewer_eq_ok {w : AcceptedWrite} {b : Bool} {t : LMDBDatastore} :
    store.putIfNewer rt w = .ok (b, t) ↔ ∃ m encodedHistory, Encodes rt w m encodedHistory ∧
      b = accepts rt (store.get w.kind w.key) (store.metadata w.kind w.key) w.seq ∧
      t = if b then store.install w m encodedHistory else store := by
  simp only [putIfNewer, bind_eq_ok, raiseIf_eq_ok, not_lt, not_not, canonicalCbor, orRaise_eq_ok]
  constructor
  · rintro ⟨-, hseq, -, hlen, -, hne, m, hm, encodedHistory, hh, h⟩
    refine ⟨m, encodedHistory, ⟨hseq, hlen, hne, hm, ?_⟩, ?_⟩
    · cases hw : w.history with
      | none => simp_all
      | some history =>
        rw [hw] at hh
        obtain ⟨b, hb, rfl⟩ := map_eq_ok.1 hh
        simpa using hb
    · simp only [metadata]
      split at h <;> simp_all
  · rintro ⟨m, encodedHistory, ⟨hseq, hlen, hne, hm, hh⟩, hb, ht⟩
    refine ⟨(), hseq, (), hlen, (), hne, m, hm, encodedHistory, ?_, ?_⟩
    · cases hw : w.history with
      | none => simp_all
      | some history => cases encodedHistory <;> simp_all
    · subst hb
      simp only [metadata] at ht ⊢
      split <;> simp_all

end LMDBDatastore

end DecentRegistry
