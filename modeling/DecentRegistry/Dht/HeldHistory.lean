import DecentRegistry.Dht.Delivery
import DecentRegistry.Dht.PredecessorWalk
import Mathlib.Algebra.Order.BigOperators.Group.List

/-!
# What an instance holds of a history

An instance that holds a beginning of an accepted history (`Holds`) serves it: the head under the
key of the record, and every entry under its state hash (`Holds.serves_head`, `Holds.serves_entry`).
The beginnings of the history are chains of predecessors (`Portable.chain`), so that another
instance can walk them. -/

namespace DecentRegistry

open Fallible PyValue Coroutine Replay LMDBDatastore

variable {rt : Runtime} {recordKey e : Bytes} {l : List Bytes} {s : MultisignatureState}

/-! ## Beginnings -/

/-- A beginning of an accepted history: an accepted history, or the legacy Identity that comes
before an upgrade. -/
inductive Beginning (rt : Runtime) (recordKey : Bytes) : List Bytes → Prop
  | legacy {legacy : LegacyState} {e : Bytes} (reads : legacy.Reads rt recordKey e)
      (recordKind : legacy.recordKind = .identity) : Beginning rt recordKey [e]
  | accepted {l : List Bytes} {s : MultisignatureState}
      (h : validateMultisignatureHistory rt recordKey l = .ok s) : Beginning rt recordKey l

theorem beginning_of_append {m : List Bytes}
    (h : validateMultisignatureHistory rt recordKey (l ++ m) = .ok s) (hne : l ≠ []) :
    Beginning rt recordKey l := by
  obtain ⟨r, hr, -⟩ := (validateMultisignatureHistory_iff_replays.1 h).append_inv hne
  cases r with
  | state t => exact .accepted (validateMultisignatureHistory_iff_replays.2 hr)
  | legacyAnchor anchor =>
    cases hr with
    | anchor h =>
      cases h with
      | legacy reads recordKind => exact .legacy reads recordKind
    | step _ h =>
      obtain ⟨_, _, _, -, -, -, heq⟩ := replayStep_eq_ok.1 h
      cases heq

namespace Beginning

/-- The last entry has a sequence number. -/
theorem isHead (h : Beginning rt recordKey l) (hlast : l.getLast? = some e) : ∃ n u update,
    IsHead rt e n u ∧ signedUpdateOf rt e = .ok u ∧ DecodesTo rt e update ∧ update.seq = n := by
  cases h with
  | legacy reads =>
    obtain rfl : _ = e := by simpa using hlast
    exact ⟨_, _, _, reads.isHead, signedUpdateOf_legacy reads,
      ⟨_, reads.isHead.signedUpdateBytes, reads.update⟩, rfl⟩
  | accepted h =>
    obtain ⟨x, p, _, hlast', hp, -⟩ := history_reads h
    obtain rfl := Option.some.inj (hlast.symm.trans hlast')
    exact ⟨_, _, _, hp.isHead, signedUpdateOf_candidate hp, ⟨_, hp.isHead.signedUpdateBytes,
      decodeMultisignatureSignedUpdate_eq_ok.1 hp.update⟩, rfl⟩

end Beginning

/-! ## Reading a beginning -/

/-- What is read as an Identity state with a history is accepted. -/
theorem identityGet_of_state {chain history : Option (List Bytes)} {p : Candidate}
    (hp : p.Reads rt e) (hstate : candidateState rt recordKey p history = .ok s)
    (hread : readIdentityState rt recordKey e chain = .ok s) (hkind : s.recordKind = .identity)
    (hhistory : s.history ≠ none) : ∃ r, validateIdentityGet rt recordKey e chain = .ok r := by
  have hreads := hp.state hstate
  have hbinding := hp.binding
  rw [show p.authorization.recordKind = .identity by
    obtain ⟨_, -, rfl⟩ := candidateState_eq_ok.1 hstate
    exact hkind] at hbinding
  obtain ⟨-, -, ownerName, ownerPublicKey, hname, howner, -⟩ := hbinding
  simp only [validateIdentityGet, isMultisignatureEnvelope_of_decode hp.envelope, if_true, hread,
    ok_bind, raiseIf, hkind, hhistory, ne_eq, not_true_eq_false, if_false, hreads.update,
    Candidate.update, getItem_eq_ok.2 hname, getItem_eq_ok.2 howner, toBytes_bytes,
    authorizationMetadata]
  exact ⟨_, rfl⟩

/-- A legacy Identity is accepted with any history. -/
theorem LegacyState.Reads.identityGet {legacy : LegacyState} (h : legacy.Reads rt recordKey e)
    (recordKind : legacy.recordKind = .identity) (chain : Option (List Bytes)) :
    ∃ r, validateIdentityGet rt recordKey e chain = .ok r := by
  obtain ⟨signature, hsigned, -⟩ := h.signed
  obtain ⟨ownerName, hname, -⟩ := h.identity recordKind
  simp only [validateIdentityGet, isMultisignatureEnvelope_of_legacy hsigned, Bool.false_eq_true,
    if_false, bind_eq_ok, validateLegacyIdentity_eq_ok]
  exact ⟨_, _, ⟨_, ownerName, h, recordKind, hname, by simp [MayFollow], rfl⟩, rfl⟩

namespace Beginning

/-- The last entry is accepted with the entries before it. -/
theorem get (h : Beginning rt recordKey l) (hlast : l.getLast? = some e) :
    ∃ r, validateIdentityGet rt recordKey e (some l) = .ok r := by
  cases h with
  | legacy reads recordKind =>
    obtain rfl : _ = e := by simpa using hlast
    exact reads.identityGet recordKind _
  | accepted h =>
    obtain ⟨x, p, _, hlast', hp, hstate⟩ := history_reads h
    obtain rfl := Option.some.inj (hlast.symm.trans hlast')
    refine identityGet_of_state hp hstate ?_ (history_recordKind h) ?_
    · simp [readIdentityState, requireHistoryEndingAt, raiseIf, hlast, h]
    · simp [(validateMultisignatureHistory_eq_ok.1 h).2]

/-- A first entry is accepted on its own. -/
theorem get_alone (h : Beginning rt recordKey [e]) :
    ∃ r, validateIdentityGet rt recordKey e none = .ok r := by
  generalize hl : [e] = l at h
  cases h with
  | legacy reads recordKind =>
    obtain rfl := List.singleton_inj.1 hl
    exact reads.identityGet recordKind _
  | accepted h =>
    subst hl
    obtain ⟨run, hhistory⟩ := validateMultisignatureHistory_eq_ok.1 h
    obtain ⟨first, rest, r, heq, hanchor, hrest⟩ := replays_iff.1 run
    obtain ⟨rfl, rfl⟩ := List.cons.inj heq
    obtain rfl := foldlM_nil_eq_ok.1 hrest
    cases hanchor with
    | genesis reads hgenesis recordKind hstate =>
      refine identityGet_of_state reads hstate ?_ (history_recordKind h) (by simp [hhistory])
      exact validateMultisignatureEnvelope_eq_ok.2 ⟨_, _, reads, .genesis hgenesis, hstate⟩

end Beginning

/-! ## Chains of predecessors -/

/-- What succeeds an envelope names it as its predecessor. -/
theorem Succeeds.link {previous : Bytes} (h : Succeeds rt recordKey previous e) :
    ¬ StartsChain rt e ∧
      ∃ stateHash, HasStateHash rt previous stateHash ∧ Names rt e stateHash := by
  obtain ⟨p, u, hp, -, hprevious, hnames, hauthorized⟩ := h
  have hreads := decodeMultisignatureCandidate_eq_ok.1 hp
  have hdecodes : DecodesTo rt e _ := ⟨_, hreads.isHead.signedUpdateBytes,
    decodeMultisignatureSignedUpdate_eq_ok.1 hreads.update⟩
  constructor
  · rintro ⟨update, ⟨v, hv, hupdate⟩, hgenesis⟩
    obtain ⟨w, hw, hdecode⟩ := hdecodes
    obtain rfl := Except.ok.inj (hv.symm.trans hw)
    obtain rfl := Except.ok.inj (hupdate.symm.trans hdecode)
    have hoperation : p.authorization.operation = .genesis := hgenesis _ rfl
    simp only [AuthorizedBy, hoperation] at hauthorized
  · exact ⟨_, ⟨u, envelopeSignedUpdateBytes_of_signedUpdateOf hprevious, rfl⟩, _, _, hdecodes, rfl,
      hnames⟩

theorem Names.unique {i j : Bytes} (h : Names rt e i) (h' : Names rt e j) : i = j := by
  obtain ⟨_, _, ⟨u, hu, hupdate⟩, hauthorization, rfl⟩ := h
  obtain ⟨_, _, ⟨v, hv, hupdate'⟩, hauthorization', rfl⟩ := h'
  obtain rfl := Except.ok.inj (hu.symm.trans hv)
  obtain rfl := Except.ok.inj (hupdate.symm.trans hupdate')
  rw [Option.some.inj (hauthorization.symm.trans hauthorization')]

/-- In an accepted history each entry succeeds the one before. -/
theorem history_isChain (h : validateMultisignatureHistory rt recordKey l = .ok s) :
    List.IsChain (Succeeds rt recordKey) l := by
  obtain ⟨first, rest, r, rfl, hanchor, hrest⟩ :=
    replays_iff.1 (validateMultisignatureHistory_eq_ok.1 h).1
  exact foldlM_isChain (StandsAt rt recordKey) (Succeeds rt recordKey)
    (fun _ _ _ _ hr ht => replayStep_succeeds hr ht) hanchor.standsAt hrest

theorem exists_rel_of_mem_tail {α : Type} {R : α → α → Prop} {l : List α} (h : l.IsChain R) {a : α}
    (ha : a ∈ l.tail) : ∃ b, R b a := by
  induction h with
  | nil => cases ha
  | singleton => cases ha
  | cons_cons hr _ ih =>
    rcases List.mem_cons.1 ha with rfl | ha
    · exact ⟨_, hr⟩
    · exact ih ha

theorem Beginning.startsChain (h : Beginning rt recordKey [e]) : StartsChain rt e := by
  generalize hl : [e] = l at h
  cases h with
  | legacy reads =>
    obtain rfl := List.singleton_inj.1 hl
    exact ⟨_, ⟨_, reads.isHead.signedUpdateBytes, reads.update⟩, by simp⟩
  | accepted h =>
    subst hl
    obtain ⟨first, rest, r, heq, hanchor, hrest⟩ :=
      replays_iff.1 (validateMultisignatureHistory_eq_ok.1 h).1
    obtain ⟨rfl, rfl⟩ := List.cons.inj heq
    obtain rfl := foldlM_nil_eq_ok.1 hrest
    cases hanchor with
    | genesis reads hgenesis =>
      refine ⟨_, ⟨_, reads.isHead.signedUpdateBytes,
        decodeMultisignatureSignedUpdate_eq_ok.1 reads.update⟩, ?_⟩
      rintro _ ⟨⟩
      exact hgenesis.operation

/-- An accepted history that a remote read can carry: within its limits, and with a state hash for
each entry. -/
structure Portable (rt : Runtime) (recordKey : Bytes) (l : List Bytes) : Prop where
  accepted : ∃ s, validateMultisignatureHistory rt recordKey l = .ok s
  distinct : l.Pairwise fun a b => ∀ h, HasStateHash rt a h → ¬ HasStateHash rt b h
  entries : l.length ≤ 256
  bytes : (l.map List.length).sum ≤ 4 * 1024 * 1024

namespace Portable

variable {n : ℕ}

theorem ne_nil (h : Portable rt recordKey l) : l ≠ [] := by
  obtain ⟨s, hs⟩ := h.accepted
  exact ne_nil_of_history hs

theorem recordKey_length (h : Portable rt recordKey l) : recordKey.length = 32 := by
  obtain ⟨s, hs⟩ := h.accepted
  obtain ⟨first, rest, r, rfl, hanchor, -⟩ :=
    replays_iff.1 (validateMultisignatureHistory_eq_ok.1 hs).1
  cases hanchor with
  | legacy reads recordKind =>
    obtain ⟨ownerName, -, -, rfl⟩ := reads.identity recordKind
    exact rt.sha256_length _
  | genesis reads hgenesis recordKind =>
    have hkey := reads.recordKey
    rw [recordKind] at hkey
    obtain ⟨owner, howner⟩ := hkey
    obtain ⟨ownerName, -, -, hname⟩ := extractIdentityAndKeys_eq_ok.1 howner
    rw [← hgenesis.lookupKey, ← hname]
    exact rt.sha256_length _

theorem beginning (h : Portable rt recordKey l) (hpos : 0 < n) :
    Beginning rt recordKey (l.take n) := by
  obtain ⟨s, hs⟩ := h.accepted
  rw [← List.take_append_drop n l] at hs
  refine beginning_of_append hs ?_
  simp [h.ne_nil, hpos.ne']

/-- **A beginning of the history is a chain of predecessors** of its last entry. -/
theorem chain (h : Portable rt recordKey l) (hpos : 0 < n) (hlast : (l.take n).getLast? = some e) :
    PredecessorChain rt e (l.take n) := by
  obtain ⟨s, hs⟩ := h.accepted
  have hchain := history_isChain hs
  have hsublist := List.take_sublist n l
  refine ⟨⟨hlast, ?_, ?_, h.distinct.sublist hsublist, ?_, ?_⟩, ?_⟩
  · intro a ha
    refine @Beginning.startsChain rt recordKey a ?_
    have hfirst : l.take 1 = [a] := by
      cases l with
      | nil => simp at ha
      | cons b l => cases n <;> simp_all
    exact hfirst ▸ h.beginning Nat.one_pos
  · exact (hchain.take n).imp fun _ _ hsucceeds => hsucceeds.link.2
  · exact (List.length_take_le' n l).trans h.entries
  · exact ((hsublist.map _).sum_le_sum fun _ _ => Nat.zero_le _).trans h.bytes
  · intro a ha
    obtain ⟨b, hb⟩ := exists_rel_of_mem_tail (hchain.take n) ha
    exact hb.link.1

/-- A state hash is that of one entry at most. -/
theorem eq_of_hasStateHash (h : Portable rt recordKey l) {a b stateHash : Bytes} (ha : a ∈ l)
    (hb : b ∈ l) (hstate : HasStateHash rt a stateHash) (hstate' : HasStateHash rt b stateHash) :
    a = b := by
  have hsymm : Std.Symm fun a b => ∀ h, HasStateHash rt a h → ¬ HasStateHash rt b h :=
    ⟨fun a b hab h hb ha => hab h ha hb⟩
  by_contra hne
  exact h.distinct.forall ha hb hne stateHash hstate hstate'

/-- The last entry of a beginning, by its position. -/
theorem getElem?_of_last {head : Bytes} (hn : n ≤ l.length)
    (hlast : (l.take n).getLast? = some head) : 0 < n ∧ l[n - 1]? = some head := by
  rcases Nat.eq_zero_or_pos n with rfl | hpos
  · simp at hlast
  · refine ⟨hpos, ?_⟩
    rw [List.getLast?_eq_getElem?, List.length_take, min_eq_left hn,
      List.getElem?_take_of_lt (by omega)] at hlast
    exact hlast

/-- **Later entries have greater sequence numbers.** -/
theorem isHead_lt {m : ℕ} {a b : Bytes} (h : Portable rt recordKey l) (hlt : m < n)
    (hn : n ≤ l.length) (ha : (l.take m).getLast? = some a) (hb : (l.take n).getLast? = some b) :
    ∃ i j u v, IsHead rt a i u ∧ IsHead rt b j v ∧ i < j := by
  obtain ⟨s, hs⟩ := h.accepted
  obtain ⟨hm, hm'⟩ := getElem?_of_last (hlt.le.trans hn) ha
  obtain ⟨hpos, hn'⟩ := getElem?_of_last hn hb
  obtain ⟨i, u, update, hi, hu, ⟨w, hw, hdecodes⟩, rfl⟩ := (h.beginning hm).isHead ha
  obtain ⟨j, v, update', hj, hv, ⟨w', hw', hdecodes'⟩, rfl⟩ := (h.beginning hpos).isHead hb
  refine ⟨_, _, u, v, hi, hj, ?_⟩
  have hpairwise := List.pairwise_iff_getElem.1 (history_pairwise_before hs) (m - 1) (n - 1)
    (by rw [List.length_map]; omega) (by rw [List.length_map]; omega) (by omega)
  obtain ⟨hm', hma⟩ := List.getElem?_eq_some_iff.1 hm'
  obtain ⟨hn', hnb⟩ := List.getElem?_eq_some_iff.1 hn'
  rw [List.getElem_map, List.getElem_map, hma, hnb] at hpairwise
  obtain ⟨x, y, previous, next, hx, hy, hprevious, hnext, hseq⟩ := hpairwise
  obtain rfl := Except.ok.inj (hu.symm.trans hx)
  obtain rfl := Except.ok.inj (hv.symm.trans hy)
  obtain rfl := Except.ok.inj ((envelopeSignedUpdateBytes_of_signedUpdateOf hu).symm.trans hw)
  obtain rfl := Except.ok.inj ((envelopeSignedUpdateBytes_of_signedUpdateOf hv).symm.trans hw')
  obtain rfl := Except.ok.inj (hdecodes.symm.trans hprevious)
  obtain rfl := Except.ok.inj (hdecodes'.symm.trans hnext)
  exact hseq

/-- An entry but the first succeeds the one before it. -/
theorem succeeds (h : Portable rt recordKey l) (hone : 1 < n) (hn : n ≤ l.length)
    (hlast : (l.take n).getLast? = some e) :
    ∃ c, l[n - 2]? = some c ∧ Succeeds rt recordKey c e := by
  obtain ⟨s, hs⟩ := h.accepted
  obtain ⟨hn', he⟩ := List.getElem?_eq_some_iff.1 (getElem?_of_last hn hlast).2
  have hsucceeds := List.isChain_iff_getElem.1 (history_isChain hs) (n - 2) (by omega)
  simp only [show n - 2 + 1 = n - 1 by omega, he] at hsucceeds
  exact ⟨_, List.getElem?_eq_getElem (by omega), hsucceeds⟩

/-- An entry but the first is not accepted on its own. -/
theorem not_get_alone (h : Portable rt recordKey l) (hone : 1 < n) (hn : n ≤ l.length)
    (hlast : (l.take n).getLast? = some e) {r : IdentityRead} :
    validateIdentityGet rt recordKey e none ≠ .ok r := by
  intro hget
  obtain ⟨c, -, hsucceeds⟩ := h.succeeds hone hn hlast
  obtain ⟨p, _, hp, -⟩ := id hsucceeds
  have hmultisig :=
    isMultisignatureEnvelope_of_decode (decodeMultisignatureCandidate_eq_ok.1 hp).envelope
  simp only [validateIdentityGet, hmultisig, if_true, bind_eq_ok, raiseIf_eq_ok, not_not] at hget
  obtain ⟨state, hstate, -, hkind, -, hhistory, -⟩ := hget
  have halone := validateMultisignatureHistory_singleton hstate hkind hhistory
  exact hsucceeds.link.1 (Beginning.accepted halone).startsChain

/-- An entry is accepted after one entry before it only, the one it names. -/
theorem eq_of_get_extends {m : ℕ} (h : Portable rt recordKey l) (hpos : 0 < m) (hlt : m < n)
    (hn : n ≤ l.length) (hlast : (l.take n).getLast? = some e) {r : IdentityRead}
    (hget : validateIdentityGet rt recordKey e (some (l.take m ++ [e])) = .ok r) : n = m + 1 := by
  obtain ⟨c, hc, hsucceeds⟩ := h.succeeds (by omega) hn hlast
  obtain ⟨p, _, hp, -⟩ := id hsucceeds
  have hmultisig :=
    isMultisignatureEnvelope_of_decode (decodeMultisignatureCandidate_eq_ok.1 hp).envelope
  simp only [validateIdentityGet, hmultisig, if_true, readIdentityState, bind_eq_ok] at hget
  obtain ⟨state, ⟨-, -, hstate⟩, -⟩ := hget
  obtain ⟨a, ha⟩ : ∃ a, l[m - 1]? = some a := ⟨_, List.getElem?_eq_getElem (by omega)⟩
  have hsucceeds' : Succeeds rt recordKey a e := by
    have htake : (l.take m).getLast? = some a := by
      rw [List.getLast?_eq_getElem?, List.length_take, min_eq_left (by omega),
        List.getElem?_take_of_lt (by omega), ha]
    obtain ⟨before, hbefore⟩ := List.getLast?_eq_some_iff.1 htake
    have hchain := history_isChain hstate
    rw [hbefore, List.append_assoc] at hchain
    exact (List.isChain_cons_cons.1 hchain.right_of_append).1
  obtain ⟨-, i, hci, hnames⟩ := hsucceeds.link
  obtain ⟨-, j, haj, hnames'⟩ := hsucceeds'.link
  obtain rfl := hnames.unique hnames'
  by_contra hne
  obtain ⟨hc', rfl⟩ := List.getElem?_eq_some_iff.1 hc
  obtain ⟨ha', rfl⟩ := List.getElem?_eq_some_iff.1 ha
  exact List.pairwise_iff_getElem.1 h.distinct (m - 1) (n - 2) (by omega) (by omega)
    (by omega) i haj hci

end Portable

/-! ## Holding a beginning -/

/-- A store that has a beginning of a history, of `n` entries: the last of them is the head, and the
metadata is that of the head. A first entry may be stored without a history. -/
structure Holds (rt : Runtime) (recordKey : Bytes) (l : List Bytes) (n : ℕ) (D : LMDBDatastore) :
    Prop where
  within : n ≤ l.length
  head : D.get .identity recordKey = (l.take n).getLast?
  history : D.getHistory rt .identity recordKey = some (l.take n) ∨
    n ≤ 1 ∧ D.getHistory rt .identity recordKey = none
  recorded : ∀ head, D.get .identity recordKey = some head → ∃ n b m, IsHead rt head n b ∧
    rt.dumps (metadataValue n (rt.sha256 b)) = some m ∧ D.metadata .identity recordKey = some m
  unrecorded : D.get .identity recordKey = none → D.metadata .identity recordKey = none

namespace Holds

variable {d : DhtInstance} {n : ℕ} {D : LMDBDatastore} {head : Bytes}
  {answer : (q : Request) → DhtState → Py q.Answer × DhtState} {state : DhtState}

/-- A first entry that is stored without a history. -/
theorem take_eq_singleton (hn : n ≤ 1) (hlast : (l.take n).getLast? = some head) :
    l.take n = [head] := by
  obtain rfl | rfl : n = 0 ∨ n = 1 := by omega
  · simp at hlast
  · cases l with
    | nil => simp at hlast
    | cons a l => simpa using hlast

variable (hl : Portable rt recordKey l) (hd : d.durableStore = some ⟨true, true⟩)
  (hpos : 0 < n) (hlast : (l.take n).getLast? = some head)

include hl hd hpos hlast

/-- The head is accepted, and with it the entries that are held. -/
theorem accepted (h : Holds rt recordKey l n D) : AcceptedHead rt d D recordKey head ∧
    (storedChain rt d D recordKey head).getD [head] = l.take n := by
  have hbeginning := hl.beginning hpos
  have hhead : headIn d D .identity recordKey = some head := by
    rw [headIn_eq (by rw [hd]; rfl), h.head, hlast]
  rcases h.history with hhistory | ⟨hn, hhistory⟩
  · have hchain : storedChain rt d D recordKey head = some (l.take n) := by
      rw [storedChain, historyIn_eq hd, hhistory]
      exact if_pos hlast
    rw [hchain, Option.getD_some]
    exact ⟨⟨hhead, hchain ▸ hbeginning.get hlast⟩, rfl⟩
  · have hchain : storedChain rt d D recordKey head = none := by
      rw [storedChain, historyIn_eq hd, hhistory]
      rfl
    have htake := take_eq_singleton hn hlast
    rw [htake] at hbeginning
    rw [hchain, Option.getD_none]
    exact ⟨⟨hhead, hchain ▸ hbeginning.get_alone⟩, htake.symm⟩

/-- **The head is served** under the key of the record. -/
theorem serves_head (h : Holds rt recordKey l n state.durable) {key : Bytes}
    (hkey : (decodeUtf8 key >>= parseKey) = .ok (.identity, recordKey)) :
    (run answer (valueStoreGet rt d key) state).1 = .ok (some head) :=
  served_head hkey (h.accepted hl hd hpos hlast).1

/-- **Every entry is served** under its state hash. -/
theorem serves_entry (h : Holds rt recordKey l n state.durable) {key stateHash a : Bytes}
    (hkey : parseIdentityHistoryKey key = .ok (recordKey, stateHash)) (ha : a ∈ l.take n)
    (hstate : HasStateHash rt a stateHash) :
    (run answer (valueStoreGet rt d key) state).1 = .ok (some a) := by
  obtain ⟨haccepted, hchain⟩ := h.accepted hl hd hpos hlast
  rw [run_valueStoreGet_history hkey, haccepted.envelopeByHash, hchain]
  have hreadable : readablePart rt (l.take n) = l.take n := by
    obtain ⟨s, hs⟩ := hl.accepted
    exact readablePart_eq fun b hb => (ValidChain.replayed hs).parses b (List.mem_of_mem_take hb)
  obtain ⟨b, hb⟩ := findByStateHash_of_mem (hreadable.symm ▸ ha) hstate
  obtain ⟨hmem, hstate'⟩ := findByStateHash_eq_some hb
  rw [hreadable] at hmem
  rw [hb, hl.eq_of_hasStateHash (List.mem_of_mem_take hmem)
    (List.mem_of_mem_take ha) hstate' hstate]

end Holds

end DecentRegistry
