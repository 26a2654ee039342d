import DecentRegistry.Dht.Alone
import DecentRegistry.Dht.Keys

/-!
# Validating what a peer puts

The hooks on the value store never suspend, so that a value put by a peer is judged in one block. On
the key of an Identity the hooked `get` serves the durable head (`Served`), and the value is judged
over the newer of what was served and the head (`inboundDecision`).
-/

namespace DecentRegistry

open Fallible PyValue Coroutine

/-! ## The value store -/

/-- The state in which the value store has a value. -/
def DhtState.remember (s : DhtState) (key value : Bytes) : DhtState :=
  { s with surroundings := { s.surroundings with
      valueStore := fun k => if k = key then some value else s.surroundings.valueStore k } }

variable {rt : Runtime} {d : DhtInstance}
  {answer : (q : Request) → DhtState → Py q.Answer × DhtState}
  {s t : DhtState} {key value : Bytes}

@[simp] theorem DhtState.remember_durable : (s.remember key value).durable = s.durable := rfl

@[simp] theorem DhtState.remember_valueStore (k : Bytes) :
    (s.remember key value).surroundings.valueStore k =
      if k = key then some value else s.surroundings.valueStore k := rfl

theorem DhtState.remember_of_stored (h : s.surroundings.valueStore key = some value) :
    s.remember key value = s := by
  have hsame : (fun k => if k = key then some value else s.surroundings.valueStore k) =
      s.surroundings.valueStore := by
    funext k
    split
    · rename_i hk
      rw [hk, h]
    · rfl
  unfold DhtState.remember
  rw [hsame]

theorem run_originalPut :
    run answer (originalPut key value) s = (.ok (), s.remember key value) := run_transact

theorem run_originalGet :
    run answer (originalGet key) s = (.ok (s.surroundings.valueStore key), s) := run_transact

/-- What is served is stored. -/
theorem run_serveAccepted :
    run answer (serveAccepted key value) s = (.ok (some value), s.remember key value) := by
  simp only [serveAccepted, run_bind, run_originalGet]
  split
  · rename_i hstored
    rw [DhtState.remember_of_stored hstored, hstored]
    rfl
  · simp only [run_bind, run_originalPut, run_originalGet, DhtState.remember_valueStore, if_true]

/-! ## What is served -/

/-- What the hooked `get` returns on the key of an Identity, and the state it leaves: what is stored
for a record without a head, else the head, if it validates with the stored history. -/
inductive Served (rt : Runtime) (d : DhtInstance) (recordKey key : Bytes) (s : DhtState) :
    Option Bytes → DhtState → Prop
  | stored (h : s.durable.get .identity recordKey = none) :
      Served rt d recordKey key s (s.surroundings.valueStore key) s
  | head {head : Bytes} {r : IdentityRead} (h : s.durable.get .identity recordKey = some head)
      (valid : validateIdentityGet rt recordKey head (historyEndingAt
        (historyIn rt d s.durable .identity recordKey) (some head)) = .ok r) :
      Served rt d recordKey key s (some head) (s.remember key head)
  | nothing {head : Bytes} {e : PyError} (h : s.durable.get .identity recordKey = some head)
      (invalid : validateIdentityGet rt recordKey head (historyEndingAt
        (historyIn rt d s.durable .identity recordKey) (some head)) = .error e) :
      Served rt d recordKey key s none s

theorem Served.durable {recordKey : Bytes} {x : Option Bytes}
    (h : Served rt d recordKey key s x t) :
    t.durable = s.durable := by
  cases h <;> rfl

/-- Of a record that has a head, nothing but the head is served. -/
theorem Served.eq_head {recordKey head : Bytes} {x : Option Bytes}
    (h : Served rt d recordKey key s x t) (hhead : s.durable.get .identity recordKey = some head) :
    x = none ∨ x = some head := by
  cases h with
  | stored h => simp [hhead] at h
  | head h =>
    obtain rfl := Option.some.inj (hhead.symm.trans h)
    exact .inr rfl
  | nothing => exact .inl rfl

/-- With a durable store, history can be served. -/
theorem run_requireServableHistory (hd : d.durableStore.isSome = true) {e : Bytes}
    {message : String} :
    run answer (requireServableHistory rt d e message) s = (.ok (), s) := by
  have hsome : d.durableStore ≠ none := Option.isSome_iff_ne_none.1 hd
  simp only [requireServableHistory, hsome, false_and, and_false, if_false, run_bind,
    Coro.reads, run_transact]
  rfl

/-- An accepted Identity is installed, unless it is the head. -/
theorem commitDurableAcceptance_identity (hd : d.durableStore.isSome = true) {recordKey e : Bytes}
    {r : IdentityOverwriteResult} :
    commitDurableAcceptance rt d (some ⟨.identity, recordKey, e, .identity r⟩) = (do
      if (← durableGet d .identity recordKey) = some e then return ()
      durableInstall rt d .identity recordKey e r.attributes none) := by
  have hsome : d.durableStore ≠ none := Option.isSome_iff_ne_none.1 hd
  simp only [commitDurableAcceptance, hsome, if_false, true_or, if_true]
  rfl

section Identity

variable {hash : Text} {recordKey : Bytes} (hd : d.durableStore.isSome = true)
  (hkey : fromHex hash = .ok recordKey) (hlength : recordKey.length = 32)

include hd hkey hlength

theorem run_valueStoreGet : ∃ x t,
    run answer (valueStoreGet rt d (utf8 (kadKey hash .identity))) s = (.ok x, t) ∧
      Served rt d recordKey (utf8 (kadKey hash .identity)) s x t := by
  obtain ⟨_, hhistory⟩ := parseIdentityHistoryKey_kadKey hash .identity
  have hparse : parseKey (kadKey hash .identity) = .ok (.identity, recordKey) :=
    parseKey_eq_ok.2 ⟨hash, rfl, hkey, hlength⟩
  simp only [valueStoreGet, hhistory, decodeUtf8_utf8, ok_bind, hparse, run_bind, run_durableGet,
    headIn_eq hd]
  cases hhead : s.durable.get .identity recordKey with
  | none => exact ⟨_, _, run_originalGet, .stored hhead⟩
  | some head =>
    simp only [run_bind, run_durableHistory]
    split
    · rename_i hinvalid
      exact ⟨none, s, rfl, .nothing hhead hinvalid⟩
    · rename_i hvalid
      exact ⟨some head, _, run_serveAccepted, .head hhead hvalid⟩

/-! ## The decision -/

omit hd hkey hlength in
/-- `_validate_dht_record` on the key of an Identity, given what was served, the durable head and
the stored history. -/
def inboundDecision (rt : Runtime) (recordKey e : Bytes) (served head : Option Bytes)
    (history : Option (List Bytes)) : Py (Option IdentityOverwriteResult) := do
  let existing ← selectNewestEnvelope rt served head
  if existing = some e then return none
  return some (← validateIdentityOverwrite rt recordKey e existing
    (historyEndingAt history existing))

/-- **What a peer's Identity is judged by.** -/
theorem run_validateDhtRecord {e : Bytes} {x : Option Bytes}
    (hget : run answer (valueStoreGet rt d (utf8 (kadKey hash .identity))) s = (.ok x, t))
    (hdurable : t.durable = s.durable) :
    run answer (validateDhtRecord rt d none (kadKey hash .identity) e) s =
      (Option.map .identity <$> inboundDecision rt recordKey e x
        (s.durable.get .identity recordKey) (historyIn rt d s.durable .identity recordKey), t) := by
  have hparse : parseKey (kadKey hash .identity) = .ok (.identity, recordKey) :=
    parseKey_eq_ok.2 ⟨hash, rfl, hkey, hlength⟩
  simp only [validateDhtRecord, hparse, run_bind, run_lift, if_true,
    run_requireServableHistory hd, hget, run_durableGet, headIn_eq hd, existingForRecord, true_or,
      hdurable, inboundDecision]
  cases selectNewestEnvelope rt x (s.durable.get .identity recordKey) with
  | error err => rfl
  | ok existing =>
    dsimp only
    split
    · rename_i hsame
      rw [ok_bind, if_pos hsame]
      rfl
    · rename_i hother
      rw [ok_bind, if_neg hother]
      simp only [validateOverExisting, Option.filter_none, run_bind, run_durableHistory, run_lift,
        hdurable]
      cases validateIdentityOverwrite rt recordKey e existing
        (historyEndingAt (historyIn rt d s.durable .identity recordKey) existing) with
      | error err => rfl
      | ok r => rfl

end Identity

end DecentRegistry
