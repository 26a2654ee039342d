import DecentRegistry.Authority.Commitment
import DecentRegistry.Dht.Inbound
import DecentRegistry.Dht.Succession
import DecentRegistry.Sample.Dht
import Mathlib.Data.List.TakeWhile

/-!
# What an instance serves

Other instances read Identities through the hooked `get` of the value store: the head of a record
under the key of the record, and the envelopes of its history under their state hashes. Whatever the
value store holds, the head is served if it validates, and the history is searched from its start up
to the first entry that does not parse (`run_valueStoreGet_history`).

The history of a multisignature head is replayed before it is searched. `validate_identity_get` does
not look at the history of a legacy head, so that what is served from it is served unvalidated, and
the head itself may be missed. `servesIdentity_iff` says for which histories this goes well.
-/

namespace DecentRegistry

open Fallible PyValue Coroutine Replay

variable {rt : Runtime} {d : DhtInstance}
  {answer : (q : Request) → DhtState → Py q.Answer × DhtState} {s : DhtState} {recordKey : Bytes}

/-! ## Searching a chain -/

/-- A chain up to its first entry that does not parse. -/
def readablePart (rt : Runtime) (chain : List Bytes) : List Bytes :=
  chain.takeWhile fun e => (envelopeSignedUpdateBytes rt e).toBool

theorem readablePart_cons {e u : Bytes} {chain : List Bytes}
    (h : envelopeSignedUpdateBytes rt e = .ok u) :
    readablePart rt (e :: chain) = e :: readablePart rt chain := by
  simp [readablePart, h, Except.toBool]

theorem readablePart_cons_error {e : Bytes} {err : PyError} {chain : List Bytes}
    (h : envelopeSignedUpdateBytes rt e = .error err) : readablePart rt (e :: chain) = [] := by
  simp [readablePart, h, Except.toBool]

/-- Everything is read of a chain whose entries all parse. -/
theorem readablePart_eq {chain : List Bytes}
    (h : ∀ e ∈ chain, ∃ u, envelopeSignedUpdateBytes rt e = .ok u) :
    readablePart rt chain = chain := by
  refine List.takeWhile_eq_self_iff.2 fun e he => ?_
  obtain ⟨u, hu⟩ := h e he
  simp [hu, Except.toBool]

/-- What the search finds is the first entry of the readable part with the hash. -/
theorem findByStateHash_eq_some {stateHash e : Bytes} {chain : List Bytes}
    (h : findByStateHash rt stateHash chain = some e) :
    e ∈ readablePart rt chain ∧ HasStateHash rt e stateHash := by
  induction chain with
  | nil => cases h
  | cons first rest ih =>
    cases hfirst : envelopeSignedUpdateBytes rt first with
    | error err => simp [findByStateHash, hfirst] at h
    | ok u =>
      simp only [findByStateHash, hfirst] at h
      rw [readablePart_cons hfirst]
      by_cases hhash : rt.sha256 u = stateHash
      · rw [if_pos hhash] at h
        obtain rfl := Option.some.inj h
        exact ⟨List.mem_cons_self, u, hfirst, hhash⟩
      · rw [if_neg hhash] at h
        exact ⟨List.mem_cons_of_mem _ (ih h).1, (ih h).2⟩

/-- The search finds every hash of the readable part. -/
theorem findByStateHash_of_mem {stateHash e : Bytes} {chain : List Bytes}
    (he : e ∈ readablePart rt chain) (h : HasStateHash rt e stateHash) :
    ∃ e', findByStateHash rt stateHash chain = some e' := by
  induction chain with
  | nil => cases he
  | cons first rest ih =>
    cases hfirst : envelopeSignedUpdateBytes rt first with
    | error err =>
      rw [readablePart_cons_error hfirst] at he
      cases he
    | ok u =>
      simp only [findByStateHash, hfirst]
      by_cases hhash : rt.sha256 u = stateHash
      · exact ⟨first, if_pos hhash⟩
      · rw [if_neg hhash]
        rw [readablePart_cons hfirst] at he
        refine ih ((List.mem_cons.1 he).resolve_left ?_)
        rintro rfl
        obtain ⟨u', hu', hstate⟩ := h
        rw [hfirst] at hu'
        exact hhash (Except.ok.inj hu' ▸ hstate)

/-! ## What is accepted of the durable store -/

/-- The stored history, if it ends at the head. -/
def storedChain (rt : Runtime) (d : DhtInstance) (D : LMDBDatastore) (recordKey head : Bytes) :
    Option (List Bytes) :=
  historyEndingAt (historyIn rt d D .identity recordKey) (some head)

/-- The durable head, which `validate_identity_get` accepts with its stored history. -/
structure AcceptedHead (rt : Runtime) (d : DhtInstance) (D : LMDBDatastore)
    (recordKey head : Bytes) : Prop where
  isHead : headIn d D .identity recordKey = some head
  valid : ∃ r, validateIdentityGet rt recordKey head (storedChain rt d D recordKey head) = .ok r

/-- Envelopes each of which the Registry accepts over the one before: a history that
`validate_multisignature_history` replays, or legacy Identities. -/
inductive ValidChain (rt : Runtime) (recordKey : Bytes) : List Bytes → Prop
  | replayed {chain : List Bytes} {state : MultisignatureState}
      (h : validateMultisignatureHistory rt recordKey chain = .ok state) :
      ValidChain rt recordKey chain
  | first {e : Bytes} {r : IdentityOverwriteResult}
      (h : validateIdentityOverwrite rt recordKey e none none = .ok r) :
      ValidChain rt recordKey [e]
  | next {chain : List Bytes} {previous e : Bytes} {r : IdentityOverwriteResult}
      (run : ValidChain rt recordKey (chain ++ [previous]))
      (legacy : isMultisignatureEnvelope rt e = false)
      (h : validateIdentityOverwrite rt recordKey e (some previous) none = .ok r) :
      ValidChain rt recordKey (chain ++ [previous, e])

theorem historyEndingAt_eq_some {history : Option (List Bytes)} {value : Option Bytes}
    {chain : List Bytes} (h : historyEndingAt history value = some chain) :
    history = some chain ∧ chain.getLast? = value := by
  unfold historyEndingAt at h
  split at h
  · split at h
    · rename_i hlast
      exact ⟨h, Option.some.inj h ▸ hlast⟩
    · cases h
  · cases h

/-- The decoders and the adapter read one SignedUpdate. -/
theorem envelopeSignedUpdateBytes_of_signedUpdateOf {e u : Bytes}
    (h : signedUpdateOf rt e = .ok u) : envelopeSignedUpdateBytes rt e = .ok u := by
  unfold signedUpdateOf at h
  split at h
  · obtain ⟨envelope, henvelope, rfl⟩ := map_eq_ok.1 h
    exact envelopeSignedUpdateBytes_of_multisignature henvelope
  · obtain ⟨signed, hsigned, rfl⟩ := map_eq_ok.1 h
    exact envelopeSignedUpdateBytes_of_legacy hsigned

/-- Every entry of a valid chain parses. -/
theorem ValidChain.parses {chain : List Bytes} (h : ValidChain rt recordKey chain) :
    ∀ e ∈ chain, ∃ u, envelopeSignedUpdateBytes rt e = .ok u := by
  have haccepted {e : Bytes} {existing : Option Bytes} {r : IdentityOverwriteResult}
      (h : validateIdentityOverwrite rt recordKey e existing none = .ok r) :
      ∃ u, envelopeSignedUpdateBytes rt e = .ok u := by
    obtain ⟨_, u, hdescribes⟩ := validateIdentityOverwrite_describes h
    exact ⟨u, hdescribes.signedUpdateBytes⟩
  induction h with
  | @replayed chain state h =>
    intro e he
    obtain ⟨-, us, hus, -⟩ := replays_isHashChain (validateMultisignatureHistory_eq_ok.1 h).1
    have hmem : signedUpdateOf rt e ∈ us.map Except.ok := hus ▸ List.mem_map_of_mem he
    obtain ⟨u, -, hu⟩ := List.mem_map.1 hmem
    exact ⟨u, envelopeSignedUpdateBytes_of_signedUpdateOf hu.symm⟩
  | first h =>
    intro e he
    obtain rfl := List.mem_singleton.1 he
    exact haccepted h
  | @next chain previous e r run legacy h ih =>
    intro x hx
    rw [List.append_cons, List.mem_append, List.mem_singleton] at hx
    rcases hx with hx | rfl
    · exact ih x hx
    · exact haccepted h

namespace AcceptedHead

variable {D : LMDBDatastore} {head : Bytes}

theorem parses (h : AcceptedHead rt d D recordKey head) :
    ∃ u, envelopeSignedUpdateBytes rt head = .ok u := by
  obtain ⟨r, hr⟩ := h.valid
  obtain ⟨_, u, hdescribes⟩ := validateIdentityGet_describes hr
  exact ⟨u, hdescribes.signedUpdateBytes⟩

/-- The stored chain of a multisignature head has been replayed. -/
theorem validChain (h : AcceptedHead rt d D recordKey head)
    (hmultisig : isMultisignatureEnvelope rt head = true) {chain : List Bytes}
    (hchain : storedChain rt d D recordKey head = some chain) : ValidChain rt recordKey chain := by
  obtain ⟨r, hr⟩ := h.valid
  simp only [validateIdentityGet, hmultisig, if_true, bind_eq_ok, hchain, readIdentityState] at hr
  obtain ⟨state, ⟨-, -, hstate⟩, -⟩ := hr
  exact .replayed hstate

end AcceptedHead

/-! ## Serving by state hash -/

/-- What a read under a state hash answers. -/
def envelopeByHash (rt : Runtime) (d : DhtInstance) (D : LMDBDatastore)
    (recordKey stateHash : Bytes) : Option Bytes :=
  match headIn d D .identity recordKey with
  | none => none
  | some head =>
    match validateIdentityGet rt recordKey head (storedChain rt d D recordKey head) with
    | .error _ => none
    | .ok _ => findByStateHash rt stateHash ((storedChain rt d D recordKey head).getD [head])

theorem AcceptedHead.envelopeByHash {D : LMDBDatastore} {head : Bytes}
    (h : AcceptedHead rt d D recordKey head) (stateHash : Bytes) :
    envelopeByHash rt d D recordKey stateHash =
      findByStateHash rt stateHash ((storedChain rt d D recordKey head).getD [head]) := by
  obtain ⟨r, hr⟩ := h.valid
  simp only [DecentRegistry.envelopeByHash, h.isHead, hr]

theorem envelopeByHash_eq_some {D : LMDBDatastore} {stateHash e : Bytes}
    (h : envelopeByHash rt d D recordKey stateHash = some e) :
    ∃ head, AcceptedHead rt d D recordKey head ∧
      e ∈ readablePart rt ((storedChain rt d D recordKey head).getD [head]) ∧
      HasStateHash rt e stateHash := by
  unfold envelopeByHash at h
  split at h
  · cases h
  · rename_i head hhead
    split at h
    · cases h
    · rename_i r hr
      exact ⟨head, ⟨hhead, r, hr⟩, findByStateHash_eq_some h⟩

theorem run_durableIdentityEnvelopeByHash {stateHash : Bytes} (hlength : stateHash.length = 32) :
    run answer (durableIdentityEnvelopeByHash rt d (toHex recordKey) stateHash) s =
      (.ok (envelopeByHash rt d s.durable recordKey stateHash), s) := by
  simp only [durableIdentityEnvelopeByHash, hlength, ne_eq, not_true_eq_false, raiseIf, if_false,
    run_bind, run_lift, fromHex_toHex, run_durableGet, envelopeByHash]
  cases headIn d s.durable .identity recordKey with
  | none => rfl
  | some head =>
    simp only [run_bind, run_durableHistory, storedChain]
    cases validateIdentityGet rt recordKey head
      (historyEndingAt (historyIn rt d s.durable .identity recordKey) (some head)) with
    | error e => rfl
    | ok r => rfl

/-- The hash a history key names has 32 bytes. -/
theorem stateHash_of_parse {key stateHash : Bytes}
    (h : parseIdentityHistoryKey key = .ok (recordKey, stateHash)) : stateHash.length = 32 := by
  simp only [parseIdentityHistoryKey, bind_eq_ok, raiseIf_eq_ok, not_or, not_not, pure_eq_ok,
    Prod.mk.injEq] at h
  obtain ⟨-, ⟨hlength, -⟩, -, rfl⟩ := h
  simp [hlength]

/-- **A read under a history key is a search of the accepted chain**, whatever the value store
holds. -/
theorem run_valueStoreGet_history {key stateHash : Bytes}
    (h : parseIdentityHistoryKey key = .ok (recordKey, stateHash)) :
    (run answer (valueStoreGet rt d key) s).1 =
      .ok (envelopeByHash rt d s.durable recordKey stateHash) := by
  simp only [valueStoreGet, h, run_bind, run_durableIdentityEnvelopeByHash (stateHash_of_parse h)]
  cases envelopeByHash rt d s.durable recordKey stateHash with
  | none => rfl
  | some e => simp only [run_serveAccepted]

/-! ## What is served -/

/-- The head, and the entries of its stored history if that is valid. -/
def Retained (rt : Runtime) (d : DhtInstance) (D : LMDBDatastore) (recordKey head e : Bytes) :
    Prop :=
  e = head ∨ ∃ chain, storedChain rt d D recordKey head = some chain ∧
    ValidChain rt recordKey chain ∧ e ∈ chain

/-- What an instance has to serve of an Identity: the head under the key of the record, and under a
state hash an envelope that is the head or an entry of its valid history, whenever there is one. -/
structure ServesIdentity (rt : Runtime) (d : DhtInstance)
    (answer : (q : Request) → DhtState → Py q.Answer × DhtState) (s : DhtState)
    (recordKey : Bytes) : Prop where
  head : ∀ key head, (decodeUtf8 key >>= parseKey) = .ok (.identity, recordKey) →
    AcceptedHead rt d s.durable recordKey head →
    (run answer (valueStoreGet rt d key) s).1 = .ok (some head)
  nothing : ∀ key head, (decodeUtf8 key >>= parseKey) = .ok (.identity, recordKey) →
    headIn d s.durable .identity recordKey = some head →
    ¬ AcceptedHead rt d s.durable recordKey head →
    (run answer (valueStoreGet rt d key) s).1 = .ok none
  sound : ∀ key stateHash e, parseIdentityHistoryKey key = .ok (recordKey, stateHash) →
    (run answer (valueStoreGet rt d key) s).1 = .ok (some e) →
    ∃ head, AcceptedHead rt d s.durable recordKey head ∧
      Retained rt d s.durable recordKey head e ∧ HasStateHash rt e stateHash
  complete : ∀ key stateHash head e, parseIdentityHistoryKey key = .ok (recordKey, stateHash) →
    AcceptedHead rt d s.durable recordKey head → Retained rt d s.durable recordKey head e →
    HasStateHash rt e stateHash →
    ∃ e', (run answer (valueStoreGet rt d key) s).1 = .ok (some e')

/-- What is served under the key of a record that has a head. -/
theorem served_of_headIn {key head : Bytes}
    (hkey : (decodeUtf8 key >>= parseKey) = .ok (.identity, recordKey))
    (hhead : headIn d s.durable .identity recordKey = some head) : ∃ x t,
      run answer (valueStoreGet rt d key) s = (.ok x, t) ∧ Served rt d recordKey key s x t ∧
        s.durable.get .identity recordKey = some head := by
  have hd : d.durableStore.isSome = true := by
    by_contra hnone
    have : d.durableStore.isNone = true := by simpa using hnone
    simp [headIn, this] at hhead
  obtain ⟨hash, rfl, hhash, hlength⟩ := parse_eq_ok.1 hkey
  obtain ⟨x, t, hrun, hserved⟩ := @run_valueStoreGet rt d answer s hash recordKey hd hhash hlength
  rw [headIn_eq hd] at hhead
  exact ⟨x, t, hrun, hserved, hhead⟩

theorem served_head {key head : Bytes}
    (hkey : (decodeUtf8 key >>= parseKey) = .ok (.identity, recordKey))
    (hhead : AcceptedHead rt d s.durable recordKey head) :
    (run answer (valueStoreGet rt d key) s).1 = .ok (some head) := by
  obtain ⟨x, t, hrun, hserved, hget⟩ :=
    @served_of_headIn rt d answer s recordKey _ _ hkey hhead.isHead
  obtain ⟨r, hr⟩ := hhead.valid
  rw [hrun]
  cases hserved with
  | stored hnone => simp [hget] at hnone
  | head h =>
    obtain rfl := Option.some.inj (hget.symm.trans h)
    rfl
  | nothing h hinvalid =>
    obtain rfl := Option.some.inj (hget.symm.trans h)
    cases hr.symm.trans hinvalid

theorem served_nothing {key head : Bytes}
    (hkey : (decodeUtf8 key >>= parseKey) = .ok (.identity, recordKey))
    (hhead : headIn d s.durable .identity recordKey = some head)
    (hnot : ¬ AcceptedHead rt d s.durable recordKey head) :
    (run answer (valueStoreGet rt d key) s).1 = .ok none := by
  obtain ⟨x, t, hrun, hserved, hget⟩ := @served_of_headIn rt d answer s recordKey _ _ hkey hhead
  rw [hrun]
  cases hserved with
  | stored hnone => simp [hget] at hnone
  | head h hvalid =>
    obtain rfl := Option.some.inj (hget.symm.trans h)
    exact absurd ⟨hhead, _, hvalid⟩ hnot
  | nothing => rfl

/-- A chain of which a search finds nothing but the head. -/
structure HeadFirst (rt : Runtime) (head : Bytes) (chain : List Bytes) : Prop where
  first : chain.head? = some head
  only : ∀ e ∈ readablePart rt chain, ∀ stateHash, HasStateHash rt e stateHash →
    HasStateHash rt head stateHash

theorem parseIdentityHistoryKey_of_length (hlength : recordKey.length = 32) {stateHash : Bytes}
    (hstate : stateHash.length = 32) :
    parseIdentityHistoryKey (historyKeyPrefix ++ recordKey ++ stateHash) =
      .ok (recordKey, stateHash) := by
  simp [parseIdentityHistoryKey, raiseIf, hlength, hstate, List.append_assoc, pure, Except.pure]

/-- Where nothing but the head is retained, a search of the stored chain has to find the head, and
can find nothing else. -/
theorem headFirst_of_serves {head : Bytes} {chain : List Bytes}
    (h : ServesIdentity rt d answer s recordKey) (hlength : recordKey.length = 32)
    (hhead : AcceptedHead rt d s.durable recordKey head)
    (hchain : storedChain rt d s.durable recordKey head = some chain)
    (hvalid : ¬ ValidChain rt recordKey chain) : HeadFirst rt head chain := by
  have hretained {e : Bytes} (he : Retained rt d s.durable recordKey head e) : e = head := by
    rcases he with rfl | ⟨chain', hchain', hvalid', -⟩
    · rfl
    · obtain rfl := Option.some.inj (hchain.symm.trans hchain')
      exact absurd hvalid' hvalid
  have hrun (u : Bytes) : (run answer (valueStoreGet rt d
      (historyKeyPrefix ++ recordKey ++ rt.sha256 u)) s).1 =
        .ok (findByStateHash rt (rt.sha256 u) chain) := by
    have hkey := parseIdentityHistoryKey_of_length hlength (rt.sha256_length u)
    rw [run_valueStoreGet_history hkey, hhead.envelopeByHash, hchain, Option.getD_some]
  have hfound {u e : Bytes} (he : findByStateHash rt (rt.sha256 u) chain = some e) : e = head := by
    have hkey := parseIdentityHistoryKey_of_length hlength (rt.sha256_length u)
    obtain ⟨head', hhead', hretained', -⟩ := h.sound _ _ _ hkey (he ▸ hrun u)
    obtain rfl := Option.some.inj (hhead.isHead.symm.trans hhead'.isHead)
    exact hretained hretained'
  -- the head is found under its own hash, so that the chain starts with an entry that parses
  obtain ⟨u, hu⟩ := hhead.parses
  have hkey := parseIdentityHistoryKey_of_length hlength (rt.sha256_length u)
  obtain ⟨e', he'⟩ := h.complete _ _ _ _ hkey hhead (.inl rfl) ⟨u, hu, rfl⟩
  rw [hrun u] at he'
  have hsearch := Except.ok.inj he'
  constructor
  · cases chain with
    | nil => cases hsearch
    | cons first rest =>
      cases hfirst : envelopeSignedUpdateBytes rt first with
      | error err => simp [findByStateHash, hfirst] at hsearch
      | ok v =>
        have hself : findByStateHash rt (rt.sha256 v) (first :: rest) = some first := by
          simp [findByStateHash, hfirst]
        rw [hfound hself, List.head?_cons]
  · rintro e he stateHash ⟨v, hv, rfl⟩
    obtain ⟨e', he'⟩ := findByStateHash_of_mem he ⟨v, hv, rfl⟩
    obtain rfl := hfound he'
    exact (findByStateHash_eq_some he').2

/-- The chain of an accepted head that ends with it has it among its entries. -/
theorem mem_of_storedChain {D : LMDBDatastore} {head : Bytes} {chain : List Bytes}
    (h : storedChain rt d D recordKey head = some chain) : head ∈ chain :=
  List.mem_of_getLast? (historyEndingAt_eq_some h).2

/-- Under such a chain, and under a valid one, what is found is what is retained. -/
theorem found_iff_retained {D : LMDBDatastore} {head : Bytes}
    (hhead : AcceptedHead rt d D recordKey head)
    (hchain : ∀ chain, storedChain rt d D recordKey head = some chain →
      ValidChain rt recordKey chain ∨ HeadFirst rt head chain) {stateHash : Bytes} :
    (∀ e, findByStateHash rt stateHash ((storedChain rt d D recordKey head).getD [head]) = some e →
      Retained rt d D recordKey head e) ∧
    ∀ e, Retained rt d D recordKey head e → HasStateHash rt e stateHash →
      ∃ e', findByStateHash rt stateHash ((storedChain rt d D recordKey head).getD [head]) =
        some e' := by
  obtain ⟨u, hu⟩ := hhead.parses
  cases hstored : storedChain rt d D recordKey head with
  | none =>
    rw [Option.getD_none]
    constructor
    · intro e he
      obtain ⟨hmem, -⟩ := findByStateHash_eq_some he
      have := List.mem_singleton.1 ((List.takeWhile_prefix _).subset hmem)
      exact .inl this
    · rintro e (rfl | ⟨chain, hchain', -⟩) hhash
      · exact findByStateHash_of_mem (by simp [readablePart, hu, Except.toBool]) hhash
      · cases hstored.symm.trans hchain'
  | some chain =>
    rw [Option.getD_some]
    have hretained {e : Bytes} (he : Retained rt d D recordKey head e) : e = head ∨
        ValidChain rt recordKey chain ∧ e ∈ chain := by
      rcases he with rfl | ⟨chain', hchain', hvalid, he⟩
      · exact .inl rfl
      · obtain rfl := Option.some.inj (hstored.symm.trans hchain')
        exact .inr ⟨hvalid, he⟩
    by_cases hvalid : ValidChain rt recordKey chain
    · constructor
      · intro e he
        have hmem := (List.takeWhile_prefix _).subset (findByStateHash_eq_some he).1
        exact .inr ⟨chain, hstored, hvalid, hmem⟩
      · intro e he hhash
        have hmem : e ∈ chain := by
          rcases hretained he with rfl | ⟨-, he⟩
          · exact mem_of_storedChain hstored
          · exact he
        rw [← readablePart_eq hvalid.parses] at hmem
        exact findByStateHash_of_mem hmem hhash
    · obtain ⟨hfirst, honly⟩ := (hchain chain hstored).resolve_left hvalid
      obtain ⟨rest, rfl⟩ := List.head?_eq_some_iff.1 hfirst
      have hself (hhash : HasStateHash rt head stateHash) :
          findByStateHash rt stateHash (head :: rest) = some head := by
        obtain ⟨v, hv, rfl⟩ := hhash
        simp [findByStateHash, hv]
      constructor
      · intro e he
        obtain ⟨hmem, hhash⟩ := findByStateHash_eq_some he
        rw [hself (honly e hmem stateHash hhash)] at he
        exact .inl (Option.some.inj he).symm
      · intro e he hhash
        obtain rfl := (hretained he).resolve_right fun hboth => hvalid hboth.1
        exact ⟨e, hself hhash⟩

/-- **When an instance serves an Identity rightly.** The head is served whatever the history; what
is served under state hashes is right if and only if the stored history of a legacy head is valid or
holds nothing but the head. -/
theorem servesIdentity_iff (rt : Runtime) (d : DhtInstance)
    (answer : (q : Request) → DhtState → Py q.Answer × DhtState) (s : DhtState) (recordKey : Bytes)
    (hlength : recordKey.length = 32) :
    ServesIdentity rt d answer s recordKey ↔
      ∀ head chain, AcceptedHead rt d s.durable recordKey head →
        isMultisignatureEnvelope rt head = false →
        storedChain rt d s.durable recordKey head = some chain →
        ValidChain rt recordKey chain ∨ HeadFirst rt head chain := by
  constructor
  · intro h head chain hhead _ hchain
    by_cases hvalid : ValidChain rt recordKey chain
    · exact .inl hvalid
    · exact .inr (headFirst_of_serves h hlength hhead hchain hvalid)
  · intro h
    have hfound {head : Bytes} (hhead : AcceptedHead rt d s.durable recordKey head)
        (stateHash : Bytes) := by
      refine @found_iff_retained _ _ _ _ _ hhead (fun chain hchain => ?_) stateHash
      cases hmultisig : isMultisignatureEnvelope rt head with
      | true => exact .inl (hhead.validChain hmultisig hchain)
      | false => exact h head chain hhead hmultisig hchain
    refine ⟨fun key head hkey hhead => ?_, fun key head hkey hhead hnot => ?_,
      fun key stateHash e hkey hrun => ?_, fun key stateHash head e hkey hhead he hhash => ?_⟩
    · exact served_head hkey hhead
    · exact served_nothing hkey hhead hnot
    · rw [run_valueStoreGet_history hkey] at hrun
      obtain ⟨head, hhead, -, hhash⟩ := envelopeByHash_eq_some (Except.ok.inj hrun)
      rw [hhead.envelopeByHash] at hrun
      exact ⟨head, hhead, (hfound hhead stateHash).1 e (Except.ok.inj hrun), hhash⟩
    · obtain ⟨e', he'⟩ := (hfound hhead stateHash).2 e he hhash
      exact ⟨e', by rw [run_valueStoreGet_history hkey, hhead.envelopeByHash, he']⟩

/-- The state of an instance that read the Identity of `a`, and then a newer value. -/
def Sample.reread (value : Bytes) : DhtState :=
  Sample.after (some value) (.getIdentityEnvelope (toHex Sample.identityKey) 0)
    (Sample.after (some Sample.legacyIdentity) (.getIdentityEnvelope (toHex Sample.identityKey) 0)
      (Sample.stateOver .empty))

/-- An instance that read the Identity of `a`, and then its upgrade. -/
theorem upgradedStore_served :
    ServesIdentity Sample.runtime Sample.node (Sample.answers none)
      (Sample.reread Sample.upgrade) Sample.identityKey := by
  have hlength : Sample.identityKey.length = 32 := Sha256.length_sha256 _
  rw [servesIdentity_iff _ _ _ _ _ hlength]
  intro head _ hhead hlegacy _
  obtain ⟨hupgrade, hmultisig⟩ :
      headIn Sample.node (Sample.reread Sample.upgrade).durable .identity Sample.identityKey =
        some Sample.upgrade ∧
      isMultisignatureEnvelope Sample.runtime Sample.upgrade = true := by
    decide +kernel
  obtain rfl := Option.some.inj (hupgrade.symm.trans hhead.isHead)
  cases hmultisig.symm.trans hlegacy

/-- **An entry of no valid history is served.** The instance read the Identity of `a`, and then a
newer one that `e` signed under the same name, which is refused over the first. It still serves the
first under its state hash, as history of the second. -/
theorem foreignHead_unvalidated :
    ¬ ServesIdentity Sample.runtime Sample.node (Sample.answers none)
      (Sample.reread Sample.foreignIdentity) Sample.identityKey := by
  intro h
  obtain ⟨hhead, hchain, hread, hrefused, hforeign, hne⟩ :
      headIn Sample.node (Sample.reread Sample.foreignIdentity).durable .identity
        Sample.identityKey = some Sample.foreignIdentity ∧
      storedChain Sample.runtime Sample.node (Sample.reread Sample.foreignIdentity).durable
        Sample.identityKey Sample.foreignIdentity =
          some [Sample.legacyIdentity, Sample.foreignIdentity] ∧
      (validateIdentityGet Sample.runtime Sample.identityKey Sample.foreignIdentity
        (some [Sample.legacyIdentity, Sample.foreignIdentity])).isOk = true ∧
      (validateMultisignatureHistory Sample.runtime Sample.identityKey
        [Sample.legacyIdentity, Sample.foreignIdentity]).isOk = false ∧
      (validateIdentityOverwrite Sample.runtime Sample.identityKey Sample.foreignIdentity
        (some Sample.legacyIdentity) none).isOk = false ∧
      [Sample.legacyIdentity, Sample.foreignIdentity].head? ≠ some Sample.foreignIdentity := by
    decide +kernel
  have haccepted : AcceptedHead Sample.runtime Sample.node
      (Sample.reread Sample.foreignIdentity).durable Sample.identityKey Sample.foreignIdentity := by
    refine ⟨hhead, ?_⟩
    rw [hchain]
    exact ⟨_, eq_ok_valueOf hread⟩
  -- nothing accepts the newer one over the first
  have hvalid : ¬ ValidChain Sample.runtime Sample.identityKey
      [Sample.legacyIdentity, Sample.foreignIdentity] := by
    intro hvalid
    generalize hl : [Sample.legacyIdentity, Sample.foreignIdentity] = l at hvalid
    cases hvalid with
    | replayed h =>
      rw [← hl] at h
      simp [h, Except.isOk, Except.toBool] at hrefused
    | first h => simp at hl
    | @next chain previous e r _ _ h =>
      obtain ⟨rfl, rfl, rfl⟩ : chain = [] ∧ previous = Sample.legacyIdentity ∧
          e = Sample.foreignIdentity := by
        cases chain with
        | nil => simpa [eq_comm] using hl
        | cons _ chain => cases chain <;> simp at hl
      simp [h, Except.isOk, Except.toBool] at hforeign
  have hlength : Sample.identityKey.length = 32 := Sha256.length_sha256 _
  exact hne (headFirst_of_serves h hlength haccepted hchain hvalid).first

end DecentRegistry
