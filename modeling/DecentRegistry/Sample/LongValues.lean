import DecentRegistry.Model.DurableStore
import DecentRegistry.Sample.Runtime

/-!
# A sample runtime for long values

CBOR heads have at most 64 bits. Here the numbers and histories that do not fit are written in a
form of their own, behind a byte that no CBOR value begins with, so that whatever the durable store
records with an envelope can be encoded (`isSome_dumps_metadata`, `isSome_dumps_history`). -/

namespace DecentRegistry.Sample

open PyValue LMDBDatastore

/-! ## The long form -/

/-- Every byte with a 1 before it, and a 0 after each byte string. -/
def joinItems (items : List Bytes) : Bytes :=
  items.flatMap fun item => item.flatMap (fun x => [1, x]) ++ [0]

def splitItems : Bytes → List Bytes
  | 0 :: rest => [] :: splitItems rest
  | _ :: x :: rest =>
    match splitItems rest with
    | item :: items => (x :: item) :: items
    | [] => [[x]]
  | _ => []

theorem splitItems_joinItems (items : List Bytes) : splitItems (joinItems items) = items := by
  induction items with
  | nil => rfl
  | cons item items ih =>
    have hitem : splitItems (item.flatMap (fun x => [1, x]) ++ 0 :: joinItems items) =
        item :: items := by
      induction item with
      | nil => simp [splitItems, ih]
      | cons x item ih' => simp [splitItems, ih']
    simpa [joinItems] using hitem

/-- A list of byte strings, or metadata. -/
def dumpsLong : Value → Option Bytes
  | .list xs => (xs.mapM Value.asBytes?).map fun items => 0xff :: 0 :: joinItems items
  | .dict [(.int 1, .atom (.int n)), (.int 2, .atom (.bytes stateHash))] =>
    if 0 ≤ n then some (0xff :: 1 :: (List.replicate n.toNat 1 ++ 0 :: stateHash)) else none
  | _ => none

def loadsLong : Bytes → Option Value
  | 0 :: rest => some (historyValue (splitItems rest))
  | 1 :: rest =>
    some (metadataValue (rest.takeWhile (· = 1)).length (rest.dropWhile (· = 1)).tail)
  | _ => none

theorem loadsLong_of_dumpsLong {v : Value} {b : Bytes} (h : dumpsLong v = some b) :
    ∃ rest, b = 0xff :: rest ∧ loadsLong rest = some v := by
  unfold dumpsLong at h
  split at h
  · rename_i xs
    obtain ⟨items, hitems, rfl⟩ := Option.map_eq_some_iff.1 h
    refine ⟨_, rfl, ?_⟩
    simp only [loadsLong, splitItems_joinItems, historyValue_of_mapM hitems]
  · rename_i n stateHash
    split at h
    · obtain rfl := Option.some.inj h
      refine ⟨_, rfl, ?_⟩
      have hn : (n.toNat : Int) = n := Int.toNat_of_nonneg ‹_›
      have htake :
        ((List.replicate n.toNat (1 : UInt8) ++ 0 :: stateHash).takeWhile (· = 1)).length =
          n.toNat := by
        rw [List.takeWhile_append_of_pos (by simp)]
        simp
      have hdrop : (List.replicate n.toNat (1 : UInt8) ++ 0 :: stateHash).dropWhile (· = 1) =
          0 :: stateHash := by
        rw [List.dropWhile_append_of_pos (by simp)]
        simp
      simp only [loadsLong, htake, hdrop, List.tail_cons, hn]
      rfl
    · cases h
  · cases h

/-! ## The runtime -/

def longRuntime : Runtime where
  loads b := match b with
    | 0xff :: rest => loadsLong rest
    | b => Cbor.decode b
  dumps v := (Cbor.encode v).or (dumpsLong v)
  sha256 := runtime.sha256
  sha256_length := runtime.sha256_length
  ed25519Verify := runtime.ed25519Verify

/-- No CBOR value begins with the byte of the long form. -/
theorem decode_longByte (rest : Bytes) : Cbor.decode (0xff :: rest) = none := rfl

theorem loads_longRuntime {b : Bytes} {v : Value} (h : Cbor.decode b = some v) :
    longRuntime.loads b = some v := by
  change (match b with | 0xff :: rest => loadsLong rest | b => Cbor.decode b) = _
  split
  · rw [decode_longByte] at h
    cases h
  · exact h

theorem longRuntime_roundTrips : longRuntime.RoundTrips := by
  intro v b hv h
  rcases Option.or_eq_some_iff.1 h with h | ⟨-, h⟩
  · exact loads_longRuntime (Cbor.decode_encode hv h)
  · obtain ⟨rest, rfl, hrest⟩ := loadsLong_of_dumpsLong h
    exact hrest

theorem isSome_dumps_metadata (n : ℕ) (stateHash : Bytes) :
    (longRuntime.dumps (metadataValue n stateHash)).isSome = true := by
  rw [show longRuntime.dumps = fun v => (Cbor.encode v).or (dumpsLong v) from rfl, Option.isSome_or]
  simp [metadataValue, dumpsLong]

theorem isSome_dumps_history (history : List Bytes) :
    (longRuntime.dumps (historyValue history)).isSome = true := by
  rw [show longRuntime.dumps = fun v => (Cbor.encode v).or (dumpsLong v) from rfl, Option.isSome_or]
  simp only [historyValue, dumpsLong, mapM_historyValue]
  simp

end DecentRegistry.Sample
