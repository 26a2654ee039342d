import DecentRegistry.Dht.HeldHistory
import DecentRegistry.Dht.RepeatedRead
import DecentRegistry.Foundations.Pulling
import Mathlib.Order.Lattice.Nat

/-!
# Replication by reads

An instance that reads an Identity from another one ends with the history of the other, if that is
longer than its own (`read_of_holds`): the head is read first, and what is missing before it is
walked by state hashes. An instance that has nothing is read too, and nothing is lost by that. So an
instance that reads pulls, and in a network of instances that read from one another a history
arrives wherever reads lead from an instance that holds it (`networkReads_replicate`). -/

namespace DecentRegistry

open Fallible PyValue Coroutine LMDBDatastore Pulling

variable {rt : Runtime} {d source : DhtInstance} {sourceState s : DhtState} {env : Environment}
  {recordKey head : Bytes} {remote : Option Bytes} {objectKeyHex : Text} {peers : List Text}
  {l : List Bytes} {m n : ℕ}

/-! ## Answers from another instance -/

/-- What the hooked value store of an instance answers to another instance. -/
def served (rt : Runtime) (d : DhtInstance) (s : DhtState) (key : Bytes) : Py (Option Bytes) :=
  (run (Environment.constantly none).answer (valueStoreGet rt d key) s).1

/-- Nothing is found, or an exception is raised that the adapter handles. -/
def FindsNothing (x : Py (Option Bytes)) : Prop :=
  x = .ok none ∨ ∃ e, x = .error e ∧ e.cls.isException = true

/-- An instance without a durable head of the record has nothing in memory either, under no spelling
of the key. -/
def DurableOnly (recordKey : Bytes) (s : DhtState) : Prop :=
  s.durable.get .identity recordKey = none → ∀ hash, fromHex hash = .ok recordKey →
    s.surroundings.valueStore (utf8 (kadKey hash .identity)) = none

/-- The answers to an instance that reads from another one: the DHT has what that one serves or
nothing. The configured peers that are asked before it have nothing, and those after it, which are
asked if it has nothing itself, have nothing then. -/
structure ReadsFrom (rt : Runtime) (d source : DhtInstance) (sourceState : DhtState)
    (env : Environment) (objectKeyHex : Text) (peers : List Text) : Prop where
  noReader : d.hasRemoteIdentityReader = false
  keepsPeers : ∀ q s,
    (env.answer q s).2.surroundings.bootstrapPeers = s.surroundings.bootstrapPeers
  lock : ∀ s, (env.answer .acceptedLock s).1 = .ok ()
  dht : ∀ quorum s,
    FindsNothing (env.answer (.getValue (kadKey objectKeyHex .identity) quorum) s).1 ∨
      (env.answer (.getValue (kadKey objectKeyHex .identity) quorum) s).1 =
        served rt source sourceState (utf8 (kadKey objectKeyHex .identity))
  peer : ∃ earlier peer later, peers = earlier ++ peer :: later ∧
    (d.peerId peer).all (· = d.localPeerId) = false ∧
    (∀ other ∈ earlier, (∀ key s, FindsNothing (env.answer (.peerEnvelope other key) s).1) ∧
      ∀ key s, FindsNothing (env.answer (.peerHistory other key) s).1) ∧
    (∀ key s,
      (env.answer (.peerEnvelope peer key) s).1 = served rt source sourceState (utf8 key)) ∧
    (∀ key s, (env.answer (.peerHistory peer key) s).1 = served rt source sourceState key) ∧
    (served rt source sourceState (utf8 (kadKey objectKeyHex .identity)) = .ok none →
      ∀ other ∈ later, ∀ key s, FindsNothing (env.answer (.peerEnvelope other key) s).1)

/-! ## Reading the head -/

theorem run_orOnException {α : Type} {p : Dht α} {a : α}
    {answer : (q : Request) → DhtState → Py q.Answer × DhtState} :
    run answer (orOnException p (pure a)) s = match run answer p s with
      | (.ok b, t) => (.ok b, t)
      | (.error e, t) => if e.cls.isException then (.ok a, t) else (.error e, t) := by
  rw [orOnException, run_orHandle]
  rcases run answer p s with ⟨e | b, t⟩
  · dsimp only
    split <;> rfl
  · rfl

/-- A request that finds something. -/
theorem run_orOnException_some {p : Dht (Option Bytes)} {t : DhtState}
    (hp : run env.answer p s = (.ok (some head), t)) :
    run env.answer (orOnException p (pure none)) s = (.ok (some head), t) := by
  rw [run_orOnException, hp]

/-- A request that finds nothing. -/
theorem run_orOnException_nothing {p : Dht (Option Bytes)} {t : DhtState} {x : Py (Option Bytes)}
    (hp : run env.answer p s = (x, t)) (h : FindsNothing x) :
    run env.answer (orOnException p (pure none)) s = (.ok none, t) := by
  rw [run_orOnException, hp]
  rcases h with rfl | ⟨e, rfl, he⟩
  · rfl
  · exact if_pos he

/-- The state is as before, up to what a read does not use. -/
structure KeepsReading (s t : DhtState) : Prop where
  durable : t.durable = s.durable
  peers : t.surroundings.bootstrapPeers = s.surroundings.bootstrapPeers

theorem KeepsReading.trans {t u : DhtState} (h : KeepsReading s t) (h' : KeepsReading t u) :
    KeepsReading s u :=
  ⟨h'.durable.trans h.durable, h'.peers.trans h.peers⟩

theorem ReadsFrom.keeps (h : ReadsFrom rt d source sourceState env objectKeyHex peers)
    (q : Request) (s : DhtState) : KeepsReading s (env.answer q s).2 :=
  ⟨env.keepsDurable q s, h.keepsPeers q s⟩

/-- Peers that have nothing. -/
theorem run_readFromPeers_nothing
    (h : ReadsFrom rt d source sourceState env objectKeyHex peers) {key : Text} {others : List Text}
    (hothers : ∀ other ∈ others, ∀ key s,
      FindsNothing (env.answer (.peerEnvelope other key) s).1) :
    ∃ t, run env.answer (readFromPeers d key others) s = (.ok none, t) ∧ KeepsReading s t := by
  induction others generalizing s with
  | nil => exact ⟨s, rfl, rfl, rfl⟩
  | cons other others ih =>
    have hrest := fun other' hother => hothers other' (List.mem_cons_of_mem other hother)
    rw [readFromPeers]
    split
    · exact ih hrest
    · obtain ⟨t, ht, hkeeps⟩ :=
        @ih (env.answer (.peerEnvelope other (kadKey key .identity)) s).2 hrest
      refine ⟨t, run_bind_eq_ok.2 ⟨none, _, ?_, ht⟩, (h.keeps _ s).trans hkeeps⟩
      exact run_orOnException_nothing run_request (hothers other List.mem_cons_self _ _)

/-- The first configured peer that has something is the other instance, if it has something. -/
theorem run_readFromPeers (h : ReadsFrom rt d source sourceState env objectKeyHex peers)
    {key : Text} {earlier later : List Text} {peer : Text}
    (hremote : (d.peerId peer).all (· = d.localPeerId) = false)
    (hearlier : ∀ other ∈ earlier, ∀ key s,
      FindsNothing (env.answer (.peerEnvelope other key) s).1)
    (hpeer : ∀ s, (env.answer (.peerEnvelope peer (kadKey key .identity)) s).1 = .ok remote)
    (hlater : remote = none → ∀ other ∈ later, ∀ key s,
      FindsNothing (env.answer (.peerEnvelope other key) s).1) :
    ∃ t, run env.answer (readFromPeers d key (earlier ++ peer :: later)) s = (.ok remote, t) ∧
      KeepsReading s t := by
  induction earlier generalizing s with
  | nil =>
    have hkeeps := h.keeps (.peerEnvelope peer (kadKey key .identity)) s
    rw [List.nil_append, readFromPeers, if_neg (by simp [hremote])]
    have hrequest : run env.answer (Coro.request (.peerEnvelope peer (kadKey key .identity))) s =
        (.ok remote, (env.answer (.peerEnvelope peer (kadKey key .identity)) s).2) :=
      run_request.trans (Prod.ext (hpeer s) rfl)
    cases remote with
    | none =>
      obtain ⟨t, ht, hkeeps'⟩ := @run_readFromPeers_nothing rt d source sourceState
        (env.answer (.peerEnvelope peer (kadKey key .identity)) s).2 env objectKeyHex peers h key
        later (hlater rfl)
      refine ⟨t, run_bind_eq_ok.2 ⟨none, _, ?_, ht⟩, hkeeps.trans hkeeps'⟩
      exact run_orOnException_nothing hrequest (.inl rfl)
    | some head =>
      exact ⟨_, run_bind_eq_ok.2 ⟨some head, _, run_orOnException_some hrequest, rfl⟩, hkeeps⟩
  | cons other earlier ih =>
    have hrest := fun other' hother => hearlier other' (List.mem_cons_of_mem other hother)
    rw [List.cons_append, readFromPeers]
    split
    · exact ih hrest
    · obtain ⟨t, ht, hkeeps⟩ :=
        @ih (env.answer (.peerEnvelope other (kadKey key .identity)) s).2 hrest
      refine ⟨t, run_bind_eq_ok.2 ⟨none, _, ?_, ht⟩, (h.keeps _ s).trans hkeeps⟩
      exact run_orOnException_nothing run_request (hearlier other List.mem_cons_self _ _)

/-- What an instance that holds a beginning serves under a spelling of the key of the record. -/
theorem served_of_holds (hl : Portable rt recordKey l)
    (hsource : source.durableStore = some ⟨true, true⟩)
    (hn : Holds rt recordKey l n sourceState.durable) (hmemory : DurableOnly recordKey sourceState)
    {hash : Text} (hkey : fromHex hash = .ok recordKey) :
    served rt source sourceState (utf8 (kadKey hash .identity)) = .ok (l.take n).getLast? := by
  cases hlast : (l.take n).getLast? with
  | none =>
    have hhead := hn.head.trans hlast
    have hsome : source.durableStore.isSome = true := by rw [hsource]; rfl
    obtain ⟨x, t, hrun, hserved⟩ :=
      @run_valueStoreGet rt source (Environment.constantly none).answer
      sourceState hash recordKey hsome hkey hl.recordKey_length
    rw [served, hrun]
    cases hserved with
    | stored => exact congrArg Except.ok (hmemory hhead hash hkey)
    | head h => cases hhead.symm.trans h
    | nothing h => cases hhead.symm.trans h
  | some head =>
    exact hn.serves_head hl hsource (Portable.getElem?_of_last hn.within hlast).1 hlast
      (parse_eq_ok.2 ⟨hash, rfl, hkey, hl.recordKey_length⟩)

theorem run_readRemoteIdentityEnvelope
    (h : ReadsFrom rt d source sourceState env objectKeyHex peers)
    (hkey : fromHex objectKeyHex = .ok recordKey) (hlength : recordKey.length = 32)
    (hserved : ∀ hash, fromHex hash = .ok recordKey →
      served rt source sourceState (utf8 (kadKey hash .identity)) = .ok remote)
    (hs : s.surroundings.bootstrapPeers = peers) :
    ∃ t, run env.answer (readRemoteIdentityEnvelope d objectKeyHex) s = (.ok remote, t) ∧
      KeepsReading s t := by
  obtain ⟨earlier, peer, later, rfl, hremote, hearlier, hpeer, -, hlater⟩ := h.peer
  obtain ⟨t, ht, hkeeps⟩ := @run_readFromPeers rt d source sourceState s env remote objectKeyHex _ h
    (toHex recordKey) earlier later peer hremote (fun other hother => (hearlier other hother).1)
    (fun s => (hpeer _ s).trans (hserved _ (fromHex_toHex _)))
    fun hnone => hlater (hnone ▸ hserved _ hkey)
  have hrecord : rewrap (fromHex objectKeyHex)
      (valueError "identity object key must be valid hex") = .ok recordKey := by
    rw [hkey]
    rfl
  refine ⟨t, run_bind_eq_ok.2 ⟨recordKey, s, run_lift_eq_ok.2 ⟨hrecord, rfl⟩, ?_⟩, hkeeps⟩
  refine run_bind_eq_ok.2 ⟨(), s, run_lift_eq_ok.2 ⟨raiseIf_neg (by simp [hlength]), rfl⟩, ?_⟩
  rw [if_neg (by simp [h.noReader])]
  exact run_bind_eq_ok.2 ⟨_, s, run_reads_eq_ok.2 ⟨hs, rfl⟩, ht⟩

/-- **What the other instance serves is read**, from the DHT or from the peers. -/
theorem run_readIdentityForGet (h : ReadsFrom rt d source sourceState env objectKeyHex peers)
    (hkey : fromHex objectKeyHex = .ok recordKey) (hlength : recordKey.length = 32)
    (hserved : ∀ hash, fromHex hash = .ok recordKey →
      served rt source sourceState (utf8 (kadKey hash .identity)) = .ok remote)
    (hs : s.surroundings.bootstrapPeers = peers) (quorum : ℕ) :
    ∃ t, run env.answer (readIdentityForGet d objectKeyHex quorum) s = (.ok remote, t) ∧
      KeepsReading s t := by
  have hkeeps := h.keeps (.getValue (kadKey objectKeyHex .identity) quorum) s
  -- where the DHT has nothing the peers are asked
  have hpeers (hnothing : FindsNothing
      (env.answer (.getValue (kadKey objectKeyHex .identity) quorum) s).1) :
      ∃ t, run env.answer (readIdentityForGet d objectKeyHex quorum) s = (.ok remote, t) ∧
        KeepsReading s t := by
    obtain ⟨t, ht, hkeeps'⟩ :=
      run_readRemoteIdentityEnvelope h hkey hlength hserved (hkeeps.peers.trans hs)
    have hne : peers.isEmpty = false := by
      obtain ⟨earlier, peer, later, rfl, -⟩ := h.peer
      simp
    refine ⟨t, run_bind_eq_ok.2 ⟨none, _, run_orOnException_nothing run_request hnothing, ?_⟩,
      hkeeps.trans hkeeps'⟩
    refine run_bind_eq_ok.2 ⟨peers, _, run_reads_eq_ok.2 ⟨hkeeps.peers.trans hs, rfl⟩, ?_⟩
    rw [if_neg (by simp [hne])]
    exact ht
  rcases h.dht quorum s with hnothing | hfound
  · exact hpeers hnothing
  · have hfound := hfound.trans (hserved _ hkey)
    cases remote with
    | none => exact hpeers (.inl hfound)
    | some head =>
      exact ⟨_, run_bind_eq_ok.2 ⟨some head, _, run_orOnException_some
        (run_request.trans (Prod.ext hfound rfl)), rfl⟩, hkeeps⟩

/-! ## Walking what comes before -/

/-- The walk along a chain that the peers hold. -/
theorem predecessorChain_of_held {rely : (q : Request) → DhtState → Py q.Answer → DhtState → Prop}
    {chain : List Bytes} (hchain : PredecessorChain rt head chain)
    (hheld : ∀ e ∈ chain, ∀ h, HasStateHash rt e h → PeersHold rt d rely objectKeyHex peers e h)
    (hs : s.surroundings.bootstrapPeers = peers) {t : DhtState} {x : Py (Option (List Bytes))}
    (hrun : Runs rely (readRemoteIdentityPredecessorChain rt d objectKeyHex head) s x t) :
    x = .ok (some chain) := by
  obtain ⟨before, rfl⟩ := List.getLast?_eq_some_iff.1 hchain.last
  have hlookup (a : Bytes) (ha : a ∈ before) (h : Bytes) (hh : HasStateHash rt a h)
      (s : DhtState) (r : Py (Option Bytes)) (t : DhtState)
      (hs : s.surroundings.bootstrapPeers = peers)
      (hanswer : Handled rely (readRemoteIdentityEnvelopeByHash rt d objectKeyHex) h s r t) :
      r = .ok (some a) ∧ t.surroundings.bootstrapPeers = peers :=
    (hheld a (List.mem_append_left _ ha) h hh).lookup hh hs hanswer
  rcases lookupWalk_of_runs hrun with ⟨a, l, rfl, hwalk⟩ | ⟨-, e, l, u, hwalk⟩
  · exact lookupWalk_complete hchain Walked.start hlookup hs hwalk
  · cases lookupWalk_complete hchain Walked.start hlookup hs hwalk

/-- What the other instance holds, the peers hold. -/
theorem ReadsFrom.peersHold (h : ReadsFrom rt d source sourceState env objectKeyHex peers)
    (hkey : fromHex objectKeyHex = .ok recordKey) (hlength : recordKey.length = 32)
    {e stateHash : Bytes}
    (hstate : HasStateHash rt e stateHash)
    (hserved : ∀ key, parseIdentityHistoryKey key = .ok (recordKey, stateHash) →
      served rt source sourceState key = .ok (some e)) :
    PeersHold rt d (fun q s r t => (r, t) = env.answer q s) objectKeyHex peers e stateHash := by
  obtain ⟨earlier, peer, later, hpeers, hremote, hearlier, -, hpeer, -⟩ := h.peer
  have hstateHash : stateHash.length = 32 := by
    obtain ⟨u, -, rfl⟩ := hstate
    exact rt.sha256_length u
  have hkadKey : identityHistoryKadKey objectKeyHex stateHash =
      .ok (historyKeyPrefix ++ recordKey ++ stateHash) := by
    simp [identityHistoryKadKey, hkey, rewrap, raiseIf, hlength, hstateHash, pure, Except.pure]
  refine ⟨_, earlier, peer, later, hkadKey, hpeers, hremote, fun s r t hs hanswer => ?_,
    fun other hother s r t hs hanswer => ?_⟩
  · have hkeeps := h.keeps (.peerHistory peer (historyKeyPrefix ++ recordKey ++ stateHash)) s
    have hfound := hpeer (historyKeyPrefix ++ recordKey ++ stateHash) s
    rw [← hanswer] at hkeeps hfound
    exact ⟨hfound.trans (hserved _ (parseIdentityHistoryKey_of_length hlength hstateHash)),
      hkeeps.peers.trans hs⟩
  · have hkeeps := h.keeps (.peerHistory other (historyKeyPrefix ++ recordKey ++ stateHash)) s
    have hnothing := (hearlier other hother).2 (historyKeyPrefix ++ recordKey ++ stateHash) s
    rw [← hanswer] at hkeeps hnothing
    refine ⟨hkeeps.peers.trans hs, fun e he => ?_, fun e he => ?_⟩
    · rcases hnothing with hnone | ⟨e', he', hexception⟩
      · cases hnone.symm.trans he
      · obtain rfl := Except.error.inj (he.symm.trans he')
        exact hexception
    · rcases hnothing with hnone | ⟨e', he', -⟩
      · cases hnone.symm.trans he
      · cases he.symm.trans he'

/-- **What is held is walked.** -/
theorem run_readRemoteIdentityPredecessorChain_held
    (h : ReadsFrom rt d source sourceState env objectKeyHex peers)
    (hkey : fromHex objectKeyHex = .ok recordKey) (hl : Portable rt recordKey l)
    (hsource : source.durableStore = some ⟨true, true⟩)
    (hn : Holds rt recordKey l n sourceState.durable) (hlast : (l.take n).getLast? = some head)
    (hs : s.surroundings.bootstrapPeers = peers) :
    ∃ t, run env.answer (readRemoteIdentityPredecessorChain rt d objectKeyHex head) s =
      (.ok (some (l.take n)), t) ∧ t.durable = s.durable := by
  obtain ⟨hpos, -⟩ := Portable.getElem?_of_last hn.within hlast
  have hruns := runs_run (fun q s r t => (r, t) = env.answer q s) env.answer (fun _ _ => rfl)
    (readRemoteIdentityPredecessorChain rt d objectKeyHex head) s
  have hchain := predecessorChain_of_held (hl.chain hpos hlast) (fun e he stateHash hstate =>
    h.peersHold hkey hl.recordKey_length hstate fun key hparse =>
      hn.serves_entry hl hsource hpos hlast hparse he hstate) hs hruns
  exact ⟨_, Prod.ext hchain rfl,
    (readRemoteIdentityPredecessorChain_quiet objectKeyHex head).run_durable env s⟩

/-! ## Validating the head -/

/-- The entries that a head is validated with: all that lead to it, or none before a first entry. -/
def LeadsTo (l : List Bytes) (n : ℕ) (chain : Option (List Bytes)) : Prop :=
  chain = some (l.take n) ∨ n = 1 ∧ chain = none

/-- The head of an instance is validated with what it holds. -/
theorem Holds.historyToCurrent_self {D : LMDBDatastore} (h : Holds rt recordKey l n D)
    (hlast : (l.take n).getLast? = some head) :
    LeadsTo l n
      (historyToCurrent (D.getHistory rt .identity recordKey) (some head) (some head)) := by
  obtain ⟨hpos, -⟩ := Portable.getElem?_of_last h.within hlast
  rcases h.history with hhistory | ⟨hn, hhistory⟩
  · left
    simp [historyToCurrent, hhistory, Option.filter, hlast]
  · right
    refine ⟨by omega, ?_⟩
    simp [historyToCurrent, hhistory]

theorem Holds.eq_zero {D : LMDBDatastore} (h : Holds rt recordKey l n D)
    (hnone : D.get .identity recordKey = none) : n = 0 := by
  have hlength := congrArg List.length (List.getLast?_eq_none_iff.1 (h.head.symm.trans hnone))
  rwa [List.length_take, min_eq_left h.within, List.length_nil] at hlength

/-- A later entry is first tried after what the instance holds. -/
theorem Holds.historyToCurrent_later {D : LMDBDatastore} (hl : Portable rt recordKey l)
    (h : Holds rt recordKey l m D) (hlt : m < n) (hn : n ≤ l.length)
    (hlast : (l.take n).getLast? = some head) :
    historyToCurrent (D.getHistory rt .identity recordKey) (D.get .identity recordKey) (some head) =
      if m = 0 then none else some (l.take m ++ [head]) := by
  cases hhead : D.get .identity recordKey with
  | none =>
    obtain rfl := h.eq_zero hhead
    rcases h.history with hhistory | ⟨-, hhistory⟩ <;>
      simp [historyToCurrent, hhistory, Option.filter]
  | some a =>
    have ha := h.head.symm.trans hhead
    obtain ⟨hpos, -⟩ := Portable.getElem?_of_last h.within ha
    have hne : a ≠ head := by
      rintro rfl
      obtain ⟨i, j, u, v, hi, hj, hij⟩ := hl.isHead_lt hlt hn ha hlast
      exact hij.ne (Except.ok.inj (hi.seq.symm.trans hj.seq))
    rw [if_neg hpos.ne']
    rcases h.history with hhistory | ⟨hm, hhistory⟩
    · simp [historyToCurrent, hhistory, Option.filter, ha, hne]
    · rw [take_eq_singleton hm ha]
      simp [historyToCurrent, hhistory, hne]

theorem run_validateCurrentIdentity_ok {chain : Option (List Bytes)} {r : IdentityRead}
    (hget : validateIdentityGet rt recordKey head chain = .ok r) :
    run env.answer (validateCurrentIdentity rt d objectKeyHex recordKey head chain) s =
      (.ok (some (r, chain)), s) := by
  simp only [validateCurrentIdentity, hget]
  rfl

/-- **The head is validated**, with what the instance holds or after a walk. -/
theorem run_validateCurrentIdentity_later
    (h : ReadsFrom rt d source sourceState env objectKeyHex peers)
    (hkey : fromHex objectKeyHex = .ok recordKey) (hl : Portable rt recordKey l)
    (hsource : source.durableStore = some ⟨true, true⟩)
    (hn : Holds rt recordKey l n sourceState.durable) (hlast : (l.take n).getLast? = some head)
    (hlt : m < n) (hs : s.surroundings.bootstrapPeers = peers) :
    ∃ r chain t, run env.answer (validateCurrentIdentity rt d objectKeyHex recordKey head
        (if m = 0 then none else some (l.take m ++ [head]))) s = (.ok (some (r, chain)), t) ∧
      t.durable = s.durable ∧ validateIdentityGet rt recordKey head chain = .ok r ∧
      LeadsTo l n chain := by
  obtain ⟨hpos, -⟩ := Portable.getElem?_of_last hn.within hlast
  cases hget : validateIdentityGet rt recordKey head
      (if m = 0 then none else some (l.take m ++ [head])) with
  | ok r =>
    refine ⟨r, _, s, run_validateCurrentIdentity_ok hget, rfl, hget, ?_⟩
    by_cases hm : m = 0
    · rw [if_pos hm] at hget ⊢
      refine .inr ⟨?_, rfl⟩
      by_contra hne
      exact hl.not_get_alone (by omega) hn.within hlast hget
    · rw [if_neg hm] at hget ⊢
      obtain rfl := hl.eq_of_get_extends (by omega) hlt hn.within hlast hget
      left
      have hhead := (Portable.getElem?_of_last hn.within hlast).2
      rw [Nat.add_sub_cancel] at hhead
      rw [List.take_add_one, hhead]
      rfl
  | error e =>
    obtain ⟨t, ht, hdurable⟩ :=
      run_readRemoteIdentityPredecessorChain_held h hkey hl hsource hn hlast hs
    obtain ⟨r, hr⟩ := (hl.beginning hpos).get hlast
    refine ⟨r, _, t, ?_, hdurable, hr, .inl rfl⟩
    simp only [validateCurrentIdentity, hget]
    refine run_bind_eq_ok.2 ⟨_, t, ht, ?_⟩
    simp only [hr]
    rfl

theorem LeadsTo.get {chain : Option (List Bytes)} (h : LeadsTo l n chain)
    (hl : Portable rt recordKey l) (hn : n ≤ l.length) (hlast : (l.take n).getLast? = some head) :
    ∃ r, validateIdentityGet rt recordKey head chain = .ok r := by
  have hbeginning := hl.beginning (Portable.getElem?_of_last hn hlast).1
  rcases h with rfl | ⟨rfl, rfl⟩
  · exact hbeginning.get hlast
  · rw [Holds.take_eq_singleton le_rfl hlast] at hbeginning
    exact hbeginning.get_alone

/-! ## Caching the head -/

/-- The metadata lets a later entry through, and no other. -/
theorem Holds.accepts_iff {D : LMDBDatastore} {seq : ℕ} {b : Bytes} (hrt : rt.RoundTrips)
    (hl : Portable rt recordKey l) (h : Holds rt recordKey l m D) (hle : m ≤ n) (hn : n ≤ l.length)
    (hlast : (l.take n).getLast? = some head) (hhead : IsHead rt head seq b) :
    accepts rt (D.get .identity recordKey) (D.metadata .identity recordKey) seq =
      decide (m < n) := by
  obtain ⟨hpos, -⟩ := Portable.getElem?_of_last hn hlast
  cases hget : D.get .identity recordKey with
  | none =>
    obtain rfl : m = 0 := h.eq_zero hget
    rw [h.unrecorded hget]
    simp [accepts, hpos]
  | some a =>
    have ha := h.head.symm.trans hget
    obtain ⟨i, b', metadata, hi, hdumps, hmetadata⟩ := h.recorded a hget
    rw [hmetadata]
    simp only [accepts, currentSeq, Option.bind_some, metadataSeq_of_dumps hrt hdumps,
      Nat.cast_lt, decide_eq_decide]
    rcases hle.lt_or_eq with hlt | rfl
    · obtain ⟨i', j, u, v, hi', hj, hij⟩ := hl.isHead_lt hlt hn ha hlast
      obtain rfl := Except.ok.inj (hi.seq.symm.trans hi'.seq)
      obtain rfl := Except.ok.inj (hhead.seq.symm.trans hj.seq)
      exact iff_of_true hij hlt
    · obtain rfl := Option.some.inj (ha.symm.trans hlast)
      obtain rfl := Except.ok.inj (hi.seq.symm.trans hhead.seq)
      simp

/-- **A validated head is cached** with the entries that lead to it, if it is a later one. -/
theorem run_durableCache_holds (hd : d.durableStore = some ⟨true, true⟩) (hrt : rt.RoundTrips)
    (henc : rt.EncodesAccepted) (hl : Portable rt recordKey l)
    (hm : Holds rt recordKey l m s.durable) (hle : m ≤ n) (hn : n ≤ l.length)
    (hlast : (l.take n).getLast? = some head) {chain : Option (List Bytes)} {r : IdentityRead}
    (hget : validateIdentityGet rt recordKey head chain = .ok r) (hchain : LeadsTo l n chain) :
    ∃ t, run env.answer (durableCache rt d .identity recordKey head r.attributes chain) s =
      (.ok (), t) ∧ Holds rt recordKey l n t.durable := by
  obtain ⟨seq, b, hdescribes⟩ := validateIdentityGet_describes hget
  have hrecorded := resultSeqAndStateHash_of_describes hdescribes
  have hne : chain ≠ some [] := by
    rcases hchain with rfl | ⟨-, rfl⟩
    · rw [Ne, Option.some.injEq]
      intro hnil
      simp [hnil] at hlast
    · simp
  obtain ⟨metadata, encoded, hencodes⟩ :=
    exists_encodes henc .identity recordKey head seq b hne
  have hput := (@putIfNewer_eq_ok rt s.durable _ _ _).2 ⟨metadata, encoded, hencodes, rfl, rfl⟩
  refine ⟨_, run_durableCache_eq_ok.2 ⟨_, .ifNewer hd rfl hrecorded hput, rfl⟩, ?_⟩
  rw [hm.accepts_iff hrt hl hle hn hlast hdescribes.toIsHead]
  rcases hle.lt_or_eq with hlt | rfl
  · simp only [hlt, decide_true, if_true]
    refine ⟨hn, by simp [hlast], ?_, fun a ha => ?_, fun hnone => ?_⟩
    · rw [getHistory_install, if_pos ⟨rfl, rfl⟩, hencodes.decodes hrt]
      rcases hchain with rfl | ⟨rfl, rfl⟩
      · exact .inl rfl
      · exact .inr ⟨le_rfl, rfl⟩
    · obtain rfl : head = a := by simpa using ha
      exact ⟨seq, b, metadata, hdescribes.toIsHead, hencodes.metadata, by simp⟩
    · simp at hnone
  · simpa using hm

/-! ## A read -/

theorem exists_getLast?_take (hpos : 0 < n) (hn : n ≤ l.length) :
    ∃ head, (l.take n).getLast? = some head := by
  refine Option.ne_none_iff_exists'.1 fun hnone => ?_
  have hlength := congrArg List.length (List.getLast?_eq_none_iff.1 hnone)
  rw [List.length_take, min_eq_left hn, List.length_nil] at hlength
  exact hpos.ne' hlength

theorem selectNewestEnvelope_of_lt {a b u v : Bytes} {i j : ℕ} (ha : IsHead rt a i u)
    (hb : IsHead rt b j v) (hlt : i < j) :
    a ≠ b ∧ selectNewestEnvelope rt (some a) (some b) = .ok (some b) ∧
      selectNewestEnvelope rt (some b) (some a) = .ok (some b) := by
  have hne : a ≠ b := by
    rintro rfl
    exact hlt.ne (Except.ok.inj (ha.seq.symm.trans hb.seq))
  refine ⟨hne, ?_, ?_⟩
  · simp only [selectNewestEnvelope, if_neg hne, ha.seq, hb.seq, if_neg hlt.ne, if_neg hlt.asymm]
    rfl
  · simp only [selectNewestEnvelope, if_neg hne.symm, ha.seq, hb.seq, if_neg hlt.ne', if_pos hlt]
    rfl

/-- The newer of the two heads is that of the longer of the two beginnings. -/
theorem Holds.selectNewestEnvelope_eq {D : LMDBDatastore} (hl : Portable rt recordKey l)
    (h : Holds rt recordKey l m D) (hn : n ≤ l.length) :
    selectNewestEnvelope rt (l.take n).getLast? (D.get .identity recordKey) =
      .ok (l.take (max m n)).getLast? := by
  cases hget : D.get .identity recordKey with
  | none =>
    obtain rfl := h.eq_zero hget
    rw [Nat.zero_max]
    cases (l.take n).getLast? <;> rfl
  | some a =>
    have ha := h.head.symm.trans hget
    rcases Nat.eq_zero_or_pos n with rfl | hpos
    · rw [Nat.max_zero, ha]
      rfl
    obtain ⟨head, hlast⟩ := exists_getLast?_take hpos hn
    rw [hlast]
    rcases lt_trichotomy m n with hlt | rfl | hlt
    · obtain ⟨i, j, u, v, hi, hj, hij⟩ := hl.isHead_lt hlt hn ha hlast
      rw [max_eq_right hlt.le, hlast, (selectNewestEnvelope_of_lt hi hj hij).2.2]
    · obtain rfl := Option.some.inj (ha.symm.trans hlast)
      rw [max_self, hlast, selectNewestEnvelope_self]
    · obtain ⟨i, j, u, v, hi, hj, hij⟩ := hl.isHead_lt hlt h.within hlast ha
      rw [max_eq_left hlt.le, ha, (selectNewestEnvelope_of_lt hi hj hij).2.1]

/-- **The newer head is validated** with the entries that lead to it. -/
theorem run_validateCurrentIdentity_max
    (h : ReadsFrom rt d source sourceState env objectKeyHex peers)
    (hkey : fromHex objectKeyHex = .ok recordKey) (hl : Portable rt recordKey l)
    (hsource : source.durableStore = some ⟨true, true⟩)
    (hn : Holds rt recordKey l n sourceState.durable) {D : LMDBDatastore}
    (hm : Holds rt recordKey l m D) (hlast : (l.take (max m n)).getLast? = some head)
    (hs : s.surroundings.bootstrapPeers = peers) :
    ∃ r chain t, run env.answer (validateCurrentIdentity rt d objectKeyHex recordKey head
        (historyToCurrent (D.getHistory rt .identity recordKey) (D.get .identity recordKey)
          (some head))) s = (.ok (some (r, chain)), t) ∧
      t.durable = s.durable ∧ validateIdentityGet rt recordKey head chain = .ok r ∧
      LeadsTo l (max m n) chain := by
  rcases lt_or_ge m n with hlt | hge
  · rw [max_eq_right hlt.le] at hlast ⊢
    rw [hm.historyToCurrent_later hl hlt hn.within hlast]
    exact run_validateCurrentIdentity_later h hkey hl hsource hn hlast hlt hs
  · rw [max_eq_left hge] at hlast ⊢
    have hleads := hm.historyToCurrent_self hlast
    rw [hm.head, hlast]
    obtain ⟨r, hr⟩ := hleads.get hl hm.within hlast
    exact ⟨r, _, s, run_validateCurrentIdentity_ok hr, rfl, hr, hleads⟩

/-- The read without the lock. -/
theorem run_getValidatedIdentityEnvelopeUnlocked (hrt : rt.RoundTrips) (henc : rt.EncodesAccepted)
    (hl : Portable rt recordKey l) (hd : d.durableStore = some ⟨true, true⟩)
    (hsource : source.durableStore = some ⟨true, true⟩)
    (hkey : fromHex objectKeyHex = .ok recordKey)
    (h : ReadsFrom rt d source sourceState env objectKeyHex peers)
    (hs : s.surroundings.bootstrapPeers = peers)
    (hn : Holds rt recordKey l n sourceState.durable) (hmemory : DurableOnly recordKey sourceState)
    (hm : Holds rt recordKey l m s.durable) (quorum : ℕ) :
    ∃ r t, run env.answer (getValidatedIdentityEnvelopeUnlocked rt d objectKeyHex quorum) s =
        (.ok r, t) ∧ r.map (·.1) = (l.take (max m n)).getLast? ∧
      Holds rt recordKey l (max m n) t.durable := by
  obtain ⟨t, hread, hkeeps⟩ := run_readIdentityForGet h hkey hl.recordKey_length
    (fun _ => served_of_holds hl hsource hn hmemory) hs quorum
  have hsome : d.durableStore.isSome = true := by rw [hd]; rfl
  have hmt : Holds rt recordKey l m t.durable := hkeeps.durable ▸ hm
  have hselect := hmt.selectNewestEnvelope_eq hl hn.within
  cases hlast : (l.take (max m n)).getLast? with
  | none =>
    -- neither instance has anything
    have hzero : max m n = 0 := by
      by_contra hne
      obtain ⟨head, hhead⟩ := exists_getLast?_take (Nat.pos_of_ne_zero hne)
        (max_le hm.within hn.within)
      cases hlast.symm.trans hhead
    have hm : m = max m n := by omega
    refine ⟨none, t, run_bind_eq_ok.2 ⟨recordKey, s, run_lift_eq_ok.2 ⟨hkey, rfl⟩, ?_⟩, rfl,
      hm ▸ hmt⟩
    refine run_bind_eq_ok.2 ⟨_, t, hread, run_bind_eq_ok.2 ⟨_, t, run_durableGet, ?_⟩⟩
    simp only [headIn_eq hsome, hselect, hlast]
    rfl
  | some head =>
    obtain ⟨r, chain, t', hvalidate, hdurable, hget, hleads⟩ :=
      run_validateCurrentIdentity_max h hkey hl hsource hn hmt hlast (hkeeps.peers.trans hs)
    have hmt' : Holds rt recordKey l m t'.durable := hdurable ▸ hmt
    suffices hcache : ∃ t'', run env.answer (if some head = (l.take n).getLast? then do
        durableCache rt d .identity recordKey head r.attributes chain
        return some (head, r)
      else return some (head, r)) t' = (.ok (some (head, r)), t'') ∧
        Holds rt recordKey l (max m n) t''.durable by
      obtain ⟨t'', hcache, hholds⟩ := hcache
      refine ⟨some (head, r), t'',
        run_bind_eq_ok.2 ⟨recordKey, s, run_lift_eq_ok.2 ⟨hkey, rfl⟩, ?_⟩, rfl, hholds⟩
      refine run_bind_eq_ok.2 ⟨_, t, hread, run_bind_eq_ok.2 ⟨_, t, run_durableGet, ?_⟩⟩
      simp only [headIn_eq hsome, hselect, hlast]
      refine run_bind_eq_ok.2 ⟨_, t, run_durableHistory, ?_⟩
      simp only [historyIn_eq hd]
      exact run_bind_eq_ok.2 ⟨_, t', hvalidate, hcache⟩
    rcases lt_or_ge n m with hlt | hge
    · rw [max_eq_left hlt.le] at hlast ⊢
      have hne : some head ≠ (l.take n).getLast? := by
        intro heq
        obtain ⟨i, j, u, v, hi, hj, hij⟩ := hl.isHead_lt hlt hm.within heq.symm hlast
        exact (selectNewestEnvelope_of_lt hi hj hij).1 rfl
      rw [if_neg hne]
      exact ⟨t', rfl, hmt'⟩
    · rw [max_eq_right hge] at hlast hleads ⊢
      obtain ⟨t'', hcache, hholds⟩ :=
        run_durableCache_holds hd hrt henc hl hmt' hge hn.within hlast hget hleads
      rw [if_pos hlast.symm]
      exact ⟨t'', run_bind_eq_ok.2 ⟨(), t'', hcache, rfl⟩, hholds⟩

theorem run_withAcceptedLock {α : Type} {p : Dht α} {a : α} {t : DhtState}
    (hlock : (env.answer .acceptedLock s).1 = .ok ())
    (hp : run env.answer p (env.answer .acceptedLock s).2 = (.ok a, t)) :
    run env.answer (withAcceptedLock p) s = (.ok a, { t with acceptedLock := false }) := by
  refine run_bind_eq_ok.2 ⟨(), _, run_request.trans (Prod.ext hlock rfl), ?_⟩
  exact run_andFinally_eq_ok.2 ⟨t, hp, rfl⟩

/-- **A read ends with the longer history.** Both instances hold a beginning of one history, and the
instance that reads is answered from the other. Then the read returns the head of the longer
beginning, or nothing where both are empty, and the instance holds that beginning afterwards. -/
theorem read_of_holds (hrt : rt.RoundTrips) (henc : rt.EncodesAccepted)
    (hl : Portable rt recordKey l) (hd : d.durableStore = some ⟨true, true⟩)
    (hsource : source.durableStore = some ⟨true, true⟩)
    (hkey : fromHex objectKeyHex = .ok recordKey)
    (h : ReadsFrom rt d source sourceState env objectKeyHex peers)
    (hs : s.surroundings.bootstrapPeers = peers)
    (hn : Holds rt recordKey l n sourceState.durable) (hmemory : DurableOnly recordKey sourceState)
    (hm : Holds rt recordKey l m s.durable) (quorum : ℕ) :
    ∃ t, run env.answer (getIdentityEnvelope rt d objectKeyHex quorum) s =
        (.ok (l.take (max m n)).getLast?, t) ∧ Holds rt recordKey l (max m n) t.durable := by
  have hkeeps := h.keeps .acceptedLock s
  obtain ⟨r, t, hread, hr, hholds⟩ :=
    run_getValidatedIdentityEnvelopeUnlocked hrt henc hl hd hsource
    hkey h (hkeeps.peers.trans hs) hn hmemory (hkeeps.durable ▸ hm) quorum
  refine ⟨{ t with acceptedLock := false },
    run_bind_eq_ok.2 ⟨_, _, run_withAcceptedLock (h.lock s) hread, ?_⟩, hholds⟩
  rw [hr]
  rfl

/-! ## A network of reads -/

/-- What an instance holds after values were put by peers, as in `inboundPuts_extend_history`. -/
theorem HoldsHistory.holds (hs : Consistent rt s) (h : HoldsHistory rt recordKey l s.durable) :
    Holds rt recordKey l l.length s.durable := by
  refine ⟨le_rfl, ?_, .inl ?_, fun a ha => hs.recorded recordKey a ha, hs.unrecorded recordKey⟩
  · rw [List.take_length, h.head]
  · rw [List.take_length, h.stored]

section Network

variable {ι : Type} [DecidableEq ι] {instances : ι → DhtInstance} {S T : ι → DhtState}
  {reads : List (ι × ι)}

/-- Instances read an Identity from one another, the first of each pair from the second. Between two
reads anything may happen that leaves the durable stores alone. -/
inductive NetworkRun (rt : Runtime) (instances : ι → DhtInstance) (recordKey : Bytes)
    (S : ι → DhtState) : List (ι × ι) → (ι → DhtState) → Prop
  | start : NetworkRun rt instances recordKey S [] S
  | read {reads : List (ι × ι)} {T : ι → DhtState} {env : Environment} {objectKeyHex : Text}
      (before : NetworkRun rt instances recordKey S reads T) (i j : ι) (quorum : ℕ)
      (hkey : fromHex objectKeyHex = .ok recordKey)
      (hmemory : DurableOnly recordKey (T j))
      (h : ReadsFrom rt (instances i) (instances j) (T j) env objectKeyHex
        (T i).surroundings.bootstrapPeers) :
      NetworkRun rt instances recordKey S (reads ++ [(i, j)]) (Function.update T i
        (run env.answer (getIdentityEnvelope rt (instances i) objectKeyHex quorum) (T i)).2)
  | other {reads : List (ι × ι)} {T : ι → DhtState}
      (before : NetworkRun rt instances recordKey S reads T) (i : ι) (t : DhtState)
      (keeps : t.durable = (T i).durable) :
      NetworkRun rt instances recordKey S reads (Function.update T i t)

variable (hrt : rt.RoundTrips) (henc : rt.EncodesAccepted) (hl : Portable rt recordKey l)
  (hd : ∀ i, (instances i).durableStore = some ⟨true, true⟩) {p : ι → ℕ}

include hrt henc hl hd

/-- **Reads pull.** -/
theorem NetworkRun.holds (hstart : ∀ i, Holds rt recordKey l (p i) (S i).durable)
    (h : NetworkRun rt instances recordKey S reads T) (k : ι) :
    Holds rt recordKey l (pulls p reads k) (T k).durable := by
  induction h generalizing k with
  | start => exact hstart k
  | @read reads T env objectKeyHex before i j quorum hkey hmemory h ih =>
    rw [pulls_concat]
    by_cases hk : k = i
    · subst hk
      obtain ⟨t, hread, hholds⟩ := read_of_holds hrt henc hl (hd k) (hd j) hkey h rfl (ih j) hmemory
        (ih k) quorum
      rw [Function.update_self, hread, show pull _ (k, j) k = _ from pull_self]
      exact hholds
    · rw [Function.update_of_ne hk, pull_of_ne hk]
      exact ih k
  | other before i t keeps ih =>
    by_cases hk : k = i
    · subst hk
      rw [Function.update_self, keeps]
      exact ih k
    · rw [Function.update_of_ne hk]
      exact ih k

/-- **Replication by reads.** Every instance holds a beginning of one history at the start, which
may be empty, and they read it from one another in any order. Then each holds the beginning that the
pulls lead to, none holds less than at the start, what one held at the start has reached every
instance to which reads lead from it, and a further read returns the head of the longer of the two
beginnings, or nothing where both are empty. -/
theorem networkReads_replicate (hstart : ∀ i, Holds rt recordKey l (p i) (S i).durable)
    (h : NetworkRun rt instances recordKey S reads T) :
    (∀ k, p k ≤ pulls p reads k ∧ Holds rt recordKey l (pulls p reads k) (T k).durable) ∧
    (∀ i k path, Pulling.Leads i path k → path.Sublist reads →
      ∃ n, p i ≤ n ∧ Holds rt recordKey l n (T k).durable) ∧
    ∀ i j env objectKeyHex quorum, fromHex objectKeyHex = .ok recordKey →
      DurableOnly recordKey (T j) →
      ReadsFrom rt (instances i) (instances j) (T j) env objectKeyHex
        (T i).surroundings.bootstrapPeers →
      (run env.answer (getIdentityEnvelope rt (instances i) objectKeyHex quorum) (T i)).1 =
        .ok (l.take (pulls p reads i ⊔ pulls p reads j)).getLast? := by
  have hholds := h.holds hrt henc hl hd hstart
  refine ⟨fun k => ⟨le_pulls k, hholds k⟩,
    fun i k path hleads hsublist => ⟨_, hleads.le_pulls hsublist, hholds k⟩, ?_⟩
  intro i j env objectKeyHex quorum hkey hmemory hreads
  obtain ⟨t, hread, -⟩ := read_of_holds hrt henc hl (hd i) (hd j) hkey hreads rfl (hholds j) hmemory
    (hholds i) quorum
  rw [hread]

end Network

/-! ## Samples -/

/-- An instance is answered from another one, which is its only peer. The DHT has nothing. -/
def Environment.fromPeer (rt : Runtime) (source : DhtInstance) (sourceState : DhtState) :
    Environment where
  answer
    | .acceptedLock, s | .putValue _ _ _, s => (.ok (), s)
    | .getValue _ _, s | .readerEnvelope _, s => (.ok none, s)
    | .peerEnvelope _ key, s => (served rt source sourceState (utf8 key), s)
    | .peerHistory _ key, s => (served rt source sourceState key, s)
  keepsDurable q s := by cases q <;> rfl

theorem readsFrom_fromPeer {peer : Text} (hreader : d.hasRemoteIdentityReader = false)
    (hremote : (d.peerId peer).all (· = d.localPeerId) = false) :
    ReadsFrom rt d source sourceState (.fromPeer rt source sourceState) objectKeyHex [peer] where
  noReader := hreader
  keepsPeers q s := by cases q <;> rfl
  lock _ := rfl
  dht _ _ := .inl (.inl rfl)
  peer := ⟨[], peer, [], rfl, hremote, by simp, fun _ _ => rfl, fun _ _ => rfl, by simp⟩

theorem Sample.upgrade_portable : Portable Sample.longRuntime Sample.identityKey
    [Sample.legacyIdentity, Sample.upgrade] := by
  obtain ⟨hne, hbytes⟩ :
      (envelopeSignedUpdateBytes Sample.longRuntime Sample.legacyIdentity).toOption.map
        Sha256.sha256 ≠
        (envelopeSignedUpdateBytes Sample.longRuntime Sample.upgrade).toOption.map Sha256.sha256 ∧
      ([Sample.legacyIdentity, Sample.upgrade].map List.length).sum ≤ 4 * 1024 * 1024 := by
    decide +kernel
  refine ⟨Sample.upgraded_holds.accepted, ?_, by simp, hbytes⟩
  simp only [List.pairwise_cons, List.mem_cons, List.not_mem_nil, or_false, forall_eq,
    false_imp_iff, implies_true, List.Pairwise.nil, and_true]
  rintro h ⟨u, hu, rfl⟩ ⟨v, hv, hhash⟩
  rw [hu, hv] at hne
  exact hne (congrArg some hhash.symm)

/-- The instance that a peer upgraded, and two that have nothing. -/
def Sample.instances (i : Fin 3) : DhtInstance := if i = 0 then Sample.node else Sample.reader

def Sample.states (i : Fin 3) : DhtState := if i = 0 then Sample.upgraded else Sample.readerState

/-- The reader reads the Identity from another instance. -/
def Sample.readFrom (source : DhtInstance) (sourceState s : DhtState) :
    Py (Option Bytes) × DhtState :=
  run (Environment.fromPeer Sample.longRuntime source sourceState).answer
    (getIdentityEnvelope Sample.longRuntime Sample.reader (toHex Sample.identityKey) 0) s

theorem Sample.readsFrom_peer (source : DhtInstance) (sourceState : DhtState) :
    ReadsFrom Sample.longRuntime Sample.reader source sourceState
      (.fromPeer Sample.longRuntime source sourceState) (toHex Sample.identityKey)
      [Sample.text "peer"] :=
  readsFrom_fromPeer rfl (by decide +kernel)

/-- Instance 1 reads from instance 2, which has nothing. -/
theorem Sample.nothing_run : NetworkRun Sample.longRuntime Sample.instances Sample.identityKey
    Sample.states [(1, 2)] (Function.update Sample.states 1
      (Sample.readFrom Sample.reader Sample.readerState Sample.readerState).2) :=
  NetworkRun.start.read 1 2 0 (fromHex_toHex _) (fun _ _ _ => rfl) (Sample.readsFrom_peer _ _)

theorem Sample.nothing_peers :
    (Sample.readFrom Sample.reader Sample.readerState
      Sample.readerState).2.surroundings.bootstrapPeers = [Sample.text "peer"] := by
  decide +kernel

/-- After that it reads from instance 0. -/
theorem Sample.upgrade_run {nothing : DhtState}
    (h : NetworkRun Sample.longRuntime Sample.instances Sample.identityKey Sample.states [(1, 2)]
      (Function.update Sample.states 1 nothing))
    (hpeers : nothing.surroundings.bootstrapPeers = [Sample.text "peer"]) :
    NetworkRun Sample.longRuntime Sample.instances Sample.identityKey Sample.states [(1, 2), (1, 0)]
      (Function.update Sample.states 1 (Sample.readFrom Sample.node Sample.upgraded nothing).2) := by
  have hmemory : DurableOnly Sample.identityKey Sample.upgraded := by
    intro hnone
    rw [Sample.upgraded_holds.head] at hnone
    cases hnone
  have hT₀ : Function.update Sample.states 1 nothing 0 = Sample.upgraded :=
    Function.update_of_ne (by decide) _ _
  have hT₁ : Function.update Sample.states 1 nothing 1 = nothing := Function.update_self _ _ _
  have hread := h.read 1 0 0 (fromHex_toHex _) (hT₀ ▸ hmemory)
    (by rw [hT₀, hT₁, hpeers]; exact Sample.readsFrom_peer Sample.node Sample.upgraded)
  rw [hT₁, Function.update_idem] at hread
  exact hread

/-- What the instances hold of the upgrade at the start. -/
theorem Sample.states_hold (i : Fin 3) : Holds Sample.longRuntime Sample.identityKey
    [Sample.legacyIdentity, Sample.upgrade] (if i = 0 then 2 else 0) (Sample.states i).durable := by
  unfold Sample.states
  split
  · exact Sample.upgraded_holds.holds (inboundRun_consistent rfl Sample.longRuntime_roundTrips
      ⟨Sample.isSome_dumps_metadata, Sample.isSome_dumps_history⟩ Sample.upgraded_run)
  · exact ⟨by simp, rfl, .inr ⟨by simp, rfl⟩, fun _ h => (by cases h), fun _ => rfl⟩

/-- The upgrade is read by an instance that has nothing, after it has read from another one that has
nothing, and then by that one. -/
theorem sampleUpgrade_replicated :
    let nothing := (Sample.readFrom Sample.reader Sample.readerState Sample.readerState).2
    let upgrade := (Sample.readFrom Sample.node Sample.upgraded nothing).2
    (∃ n, 2 ≤ n ∧ Holds Sample.longRuntime Sample.identityKey
      [Sample.legacyIdentity, Sample.upgrade] n upgrade.durable) ∧
    (Sample.readFrom Sample.reader upgrade Sample.readerState).1 = .ok (some Sample.upgrade) := by
  have key (upgrade : DhtState) (hrun : NetworkRun Sample.longRuntime Sample.instances
      Sample.identityKey Sample.states [(1, 2), (1, 0)]
      (Function.update Sample.states 1 upgrade)) :
      (∃ n, 2 ≤ n ∧ Holds Sample.longRuntime Sample.identityKey
        [Sample.legacyIdentity, Sample.upgrade] n upgrade.durable) ∧
      (Sample.readFrom Sample.reader upgrade Sample.readerState).1 =
        .ok (some Sample.upgrade) := by
    obtain ⟨-, harrives, hread⟩ := networkReads_replicate Sample.longRuntime_roundTrips
      ⟨Sample.isSome_dumps_metadata, Sample.isSome_dumps_history⟩ Sample.upgrade_portable
      (by decide) Sample.states_hold hrun
    obtain ⟨n, hn, hholds⟩ := harrives 0 1 [(1, 0)] (.cons (.nil _)) (by simp)
    rw [Function.update_self] at hholds
    refine ⟨⟨n, hn, hholds⟩, ?_⟩
    obtain rfl : n = 2 := le_antisymm hholds.within hn
    refine (hread 2 1 _ _ 0 (fromHex_toHex _) ?_ (Sample.readsFrom_peer _ _)).trans ?_
    · intro hnone
      rw [Function.update_self, hholds.head] at hnone
      cases hnone
    · have hlonger : pulls (fun i : Fin 3 => if i = 0 then 2 else 0) [(1, 2), (1, 0)] 2 ⊔
          pulls (fun i : Fin 3 => if i = 0 then 2 else 0) [(1, 2), (1, 0)] 1 = 2 := by
        decide
      exact congrArg (fun n => Except.ok (List.getLast? (List.take n _))) hlonger
  exact key _ (Sample.upgrade_run Sample.nothing_run Sample.nothing_peers)

end DecentRegistry
