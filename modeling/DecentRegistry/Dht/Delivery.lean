import DecentRegistry.Dht.Agreement
import DecentRegistry.Dht.InboundRuns
import DecentRegistry.Dht.Serving

/-!
# Delivering a history to an instance

Values put by peers change the history that an instance keeps of an Identity in one way only: an
entry that extends it is appended (`HoldsHistory.put`). So whatever is put, the stored history grows
at its end by values that were put, in their order (`inboundPuts_extend_history`). And whoever puts
the entries of an accepted history in their order, with anything in between, brings the instance to
where it carries all of its SignedUpdates, unless the history and what is stored then are evidence
against a signer (`inboundPuts_catch_up`). -/

namespace DecentRegistry

open Fallible PyValue Coroutine LMDBDatastore

variable {rt : Runtime} {d : DhtInstance}
  {answer : (q : Request) → DhtState → Py q.Answer × DhtState}
  {s t : DhtState} {recordKey e : Bytes} {l : List Bytes} {D D' : LMDBDatastore}

/-! ## One value -/

/-- What a value put under the key of an Identity does to the durable store: nothing, where the
value is the head or is not accepted over it with the stored history, and else it is installed. -/
inductive Settles (rt : Runtime) (recordKey e : Bytes) (D : LMDBDatastore) : LMDBDatastore → Prop
  | kept (h : D.get .identity recordKey = some e ∨
      ∀ r, validateIdentityOverwrite rt recordKey e (D.get .identity recordKey)
        (historyEndingAt (D.getHistory rt .identity recordKey) (D.get .identity recordKey)) ≠
          .ok r) :
      Settles rt recordKey e D D
  | installed {n : ℕ} {b m : Bytes} {encodedHistory : Option Bytes} {r : IdentityOverwriteResult}
      (accepted : validateIdentityOverwrite rt recordKey e (D.get .identity recordKey)
        (historyEndingAt (D.getHistory rt .identity recordKey) (D.get .identity recordKey)) = .ok r)
      (encodes : Encodes rt (identityWrite rt recordKey e n b r) m encodedHistory) :
      Settles rt recordKey e D (D.install (identityWrite rt recordKey e n b r) m encodedHistory)

/-- What is encoded of a write is decoded again. -/
theorem LMDBDatastore.Encodes.decodes (hrt : rt.RoundTrips) {w : AcceptedWrite} {m : Bytes}
    {encodedHistory : Option Bytes} (h : Encodes rt w m encodedHistory) :
    encodedHistory.bind (decodeHistory rt) = w.history := by
  have hencoded := h.history
  cases hhistory : w.history with
  | none =>
    rw [hhistory, Option.map_none, eq_comm, Option.map_eq_none_iff] at hencoded
    rw [hencoded]
    rfl
  | some history =>
    rw [hhistory, Option.map_some, eq_comm, Option.map_eq_some_iff] at hencoded
    obtain ⟨encoded, rfl, hdumps⟩ := hencoded
    refine decodeHistory_of_dumps hrt ?_ hdumps.symm
    rintro rfl
    exact h.history_ne_nil hhistory

/-- What is recorded with an envelope can be encoded. -/
theorem LMDBDatastore.exists_encodes (henc : rt.EncodesAccepted) (kind : RecordKind)
    (key value : Bytes) (n : ℕ) (b : Bytes) {history : Option (List Bytes)}
    (hne : history ≠ some []) :
    ∃ m encodedHistory, Encodes rt ⟨kind, key, value, n, rt.sha256 b, history⟩ m
      encodedHistory := by
  obtain ⟨m, hm⟩ := Option.isSome_iff_exists.1 (henc.metadata n (rt.sha256 b))
  cases history with
  | none => exact ⟨m, none, Int.natCast_nonneg n, rt.sha256_length b, hne, hm, rfl⟩
  | some history =>
    obtain ⟨encoded, hencoded⟩ := Option.isSome_iff_exists.1 (henc.history history)
    exact ⟨m, some encoded, Int.natCast_nonneg n, rt.sha256_length b, hne, hm,
      congrArg some hencoded⟩

/-- An accepted value is the head, with the history that it is accepted with. -/
theorem Settles.head_of_accepted (hrt : rt.RoundTrips) (h : Settles rt recordKey e D D')
    (hne : D.get .identity recordKey ≠ some e) {r : IdentityOverwriteResult}
    (hr : validateIdentityOverwrite rt recordKey e (D.get .identity recordKey)
      (historyEndingAt (D.getHistory rt .identity recordKey) (D.get .identity recordKey)) = .ok r) :
    D'.get .identity recordKey = some e ∧
      D'.getHistory rt .identity recordKey = r.state.bind (·.history) := by
  cases h with
  | kept h =>
    rcases h with h | h
    · exact (hne h).elim
    · exact (h r hr).elim
  | installed accepted encodes =>
    obtain rfl := Except.ok.inj (accepted.symm.trans hr)
    exact ⟨by simp [identityWrite], by simpa [identityWrite] using encodes.decodes hrt⟩

/-- With a complete store, histories are read. -/
theorem historyIn_eq (hd : d.durableStore = some ⟨true, true⟩) (D : LMDBDatastore)
    (kind : RecordKind) (key : Bytes) : historyIn rt d D kind key = D.getHistory rt kind key := by
  simp [historyIn, hd]

section Put

variable {hash : Text} (hd : d.durableStore = some ⟨true, true⟩) (hrt : rt.RoundTrips)
  (henc : rt.EncodesAccepted)

include hd hrt henc

theorem run_inboundPut_settles (hkey : fromHex hash = .ok recordKey)
    (hlength : recordKey.length = 32)
    (hs : Consistent rt s) : ∃ x t,
      run answer (inboundPut rt d (utf8 (kadKey hash .identity)) e) s = (x, t) ∧
        Settles rt recordKey e s.durable t.durable := by
  have hsome : d.durableStore.isSome = true := by rw [hd]; rfl
  have hparse : parseKey (kadKey hash .identity) = .ok (.identity, recordKey) :=
    parseKey_eq_ok.2 ⟨hash, rfl, hkey, hlength⟩
  obtain ⟨x, t, hget, hserved⟩ : ∃ x t,
      run answer (valueStoreGet rt d (utf8 (kadKey hash .identity))) s = (.ok x, t) ∧
        Served rt d recordKey (utf8 (kadKey hash .identity)) s x t :=
    run_valueStoreGet hsome hkey hlength
  have hvalidate := run_validateDhtRecord (e := e) hsome hkey hlength hget hserved.durable
  simp only [inboundDecision, hserved.select hkey hlength hs, ok_bind, historyIn_eq hd] at hvalidate
  simp only [inboundPut, valueStorePut, run_bind,
    prepareDurableAcceptance_eq hsome hparse, hvalidate]
  by_cases hsame : s.durable.get .identity recordKey = some e
  · rw [if_pos hsame]
    refine ⟨_, t.remember (utf8 (kadKey hash .identity)) e, rfl, ?_⟩
    rw [DhtState.remember_durable, hserved.durable]
    exact .kept (.inl hsame)
  rw [if_neg hsame]
  cases haccepted : validateIdentityOverwrite rt recordKey e (s.durable.get .identity recordKey)
      (historyEndingAt (s.durable.getHistory rt .identity recordKey)
        (s.durable.get .identity recordKey)) with
  | error err =>
    refine ⟨_, _, rfl, ?_⟩
    rw [hserved.durable]
    exact .kept (.inr fun r h => by rw [haccepted] at h; cases h)
  | ok r =>
    have hdurable : (t.remember (utf8 (kadKey hash .identity)) e).durable = s.durable :=
      hserved.durable
    obtain ⟨n, b, m, encodedHistory, -, hencodes, hcommit⟩ :=
      run_commitDurableAcceptance_identity hd hrt henc hs hdurable hsame haccepted
    exact ⟨_, _, hcommit, .installed haccepted hencodes⟩

end Put

/-! ## A stored history -/

/-- A store that keeps an accepted history of a record, up to its head. -/
structure HoldsHistory (rt : Runtime) (recordKey : Bytes) (l : List Bytes) (D : LMDBDatastore) :
    Prop where
  stored : D.getHistory rt .identity recordKey = some l
  head : D.get .identity recordKey = l.getLast?
  accepted : ∃ s, validateMultisignatureHistory rt recordKey l = .ok s

namespace HoldsHistory

theorem of_same (h : HoldsHistory rt recordKey l D)
    (hhead : D'.get .identity recordKey = D.get .identity recordKey)
    (hhistory : D'.getHistory rt .identity recordKey = D.getHistory rt .identity recordKey) :
    HoldsHistory rt recordKey l D' :=
  ⟨hhistory.trans h.stored, hhead.trans h.head, h.accepted⟩

/-- The head and the history that a value is judged with. -/
theorem reads (h : HoldsHistory rt recordKey l D) :
    ∃ x, l.getLast? = some x ∧ D.get .identity recordKey = some x ∧
      historyEndingAt (D.getHistory rt .identity recordKey)
        (D.get .identity recordKey) = some l := by
  obtain ⟨s, hs⟩ := h.accepted
  obtain ⟨x, _, _, hlast, -⟩ := history_reads hs
  refine ⟨x, hlast, h.head.trans hlast, ?_⟩
  rw [h.stored, h.head, hlast]
  exact if_pos hlast

/-- What is installed over a stored history is appended to it. -/
theorem install (hrt : rt.RoundTrips) (h : HoldsHistory rt recordKey l D) {n : ℕ} {b m : Bytes}
    {encodedHistory : Option Bytes} {r : IdentityOverwriteResult}
    (accepted : validateIdentityOverwrite rt recordKey e (D.get .identity recordKey)
      (historyEndingAt (D.getHistory rt .identity recordKey) (D.get .identity recordKey)) = .ok r)
    (encodes : Encodes rt (identityWrite rt recordKey e n b r) m encodedHistory) :
    HoldsHistory rt recordKey (l ++ [e])
      (D.install (identityWrite rt recordKey e n b r) m encodedHistory) := by
  obtain ⟨x, hlast, hhead, hchain⟩ := h.reads
  obtain ⟨current, hcurrent⟩ := h.accepted
  rw [hchain, hhead] at accepted
  obtain ⟨s, hs, hextends⟩ := extends_of_overwrite hcurrent hlast accepted
  have hhistory : (identityWrite rt recordKey e n b r).history = some (l ++ [e]) := by
    rw [identityWrite, hs]
    exact (validateMultisignatureHistory_eq_ok.1 hextends).2
  refine ⟨?_, by simp [identityWrite], s, hextends⟩
  rw [getHistory_install, if_pos ⟨rfl, rfl⟩, encodes.decodes hrt, hhistory]

/-- What extends a history is not its last entry. -/
theorem ne_of_extends {x : Bytes} {u : MultisignatureState} (hlast : l.getLast? = some x)
    (h : validateMultisignatureHistory rt recordKey (l ++ [e]) = .ok u) : x ≠ e := by
  rintro rfl
  have hpairwise := history_pairwise_before h
  rw [List.map_append, List.pairwise_append] at hpairwise
  obtain ⟨b, b', previous, next, hb, hb', hprevious, hnext, hlt⟩ :=
    hpairwise.2.2 _ (List.mem_map_of_mem (List.mem_of_getLast? hlast)) _ List.mem_cons_self
  obtain rfl := Except.ok.inj (hb.symm.trans hb')
  obtain rfl := Except.ok.inj (hprevious.symm.trans hnext)
  exact lt_irrefl _ hlt

/-- **One value under the key of the record** is appended if it extends the history, and changes
nothing if it does not. -/
theorem settles (hrt : rt.RoundTrips) (h : HoldsHistory rt recordKey l D)
    (hsettles : Settles rt recordKey e D D') :
    (HoldsHistory rt recordKey l D' ∧
      ∀ u, validateMultisignatureHistory rt recordKey (l ++ [e]) ≠ .ok u) ∨
    HoldsHistory rt recordKey (l ++ [e]) D' := by
  cases hsettles with
  | kept hkept =>
    refine .inl ⟨h, fun u hu => ?_⟩
    obtain ⟨x, hlast, hhead, hchain⟩ := h.reads
    obtain ⟨current, hcurrent⟩ := h.accepted
    obtain ⟨r, hr, -⟩ := overwrite_of_extends hcurrent hlast hu
    rw [hchain, hhead] at hkept
    rcases hkept with hkept | hkept
    · exact ne_of_extends hlast hu (Option.some.inj hkept)
    · exact hkept r hr
  | installed accepted encodes => exact .inr (h.install hrt accepted encodes)

end HoldsHistory

/-! ## Runs -/

/-- A value that a peer puts under a key of the record. -/
def PutUnder (recordKey : Bytes) (p : Bytes × Bytes) : Prop :=
  decodeUtf8 p.1 >>= parseKey = .ok (.identity, recordKey)

/-- Values put by peers, one after another. -/
def inboundPuts (rt : Runtime) (d : DhtInstance)
    (answer : (q : Request) → DhtState → Py q.Answer × DhtState) (s : DhtState)
    (values : List (Bytes × Bytes)) : DhtState :=
  values.foldl (fun s p => (run answer (inboundPut rt d p.1 p.2) s).2) s

@[simp] theorem inboundPuts_nil : inboundPuts rt d answer s [] = s := rfl

@[simp] theorem inboundPuts_cons (key value : Bytes) (values : List (Bytes × Bytes)) :
    inboundPuts rt d answer s ((key, value) :: values) =
      inboundPuts rt d answer (run answer (inboundPut rt d key value) s).2 values := rfl

theorem InboundRun.puts (h : InboundRun rt d answer s) (values : List (Bytes × Bytes)) :
    InboundRun rt d answer (inboundPuts rt d answer s values) := by
  induction values generalizing s with
  | nil => exact h
  | cons p values ih => exact ih (h.put p.1 p.2)

section Runs

variable (hd : d.durableStore = some ⟨true, true⟩) (hrt : rt.RoundTrips) (henc : rt.EncodesAccepted)

include hd hrt henc

/-- **One value**, under whatever key. -/
theorem HoldsHistory.put (hs : Consistent rt s) (h : HoldsHistory rt recordKey l s.durable)
    (p : Bytes × Bytes) : ∃ x t, run answer (inboundPut rt d p.1 p.2) s = (x, t) ∧
      Consistent rt t ∧
      ((HoldsHistory rt recordKey l t.durable ∧ (PutUnder recordKey p →
          ∀ u, validateMultisignatureHistory rt recordKey (l ++ [p.2]) ≠ .ok u)) ∨
        HoldsHistory rt recordKey (l ++ [p.2]) t.durable) := by
  obtain ⟨key, value⟩ := p
  obtain ⟨x, t, hrun, ht, -⟩ := @run_inboundPut rt d answer s key value hd hrt henc hs
  refine ⟨x, t, hrun, ht, ?_⟩
  by_cases hidentity : ∃ key', decodeUtf8 key >>= parseKey = .ok (.identity, key')
  · obtain ⟨key', hparse⟩ := hidentity
    obtain ⟨hash, rfl, hkey, hlength⟩ := parse_eq_ok.1 hparse
    obtain ⟨x', t', hrun', hsettles⟩ :=
      @run_inboundPut_settles rt d answer s key' value hash hd hrt henc hkey hlength hs
    obtain ⟨-, rfl⟩ := Prod.mk.inj (hrun.symm.trans hrun')
    by_cases hsame : key' = recordKey
    · subst hsame
      exact (h.settles hrt hsettles).imp_left fun ⟨hholds, hrefused⟩ => ⟨hholds, fun _ => hrefused⟩
    · have hother : ¬ PutUnder recordKey (utf8 (kadKey hash .identity), value) := by
        intro hput
        obtain ⟨-, heq⟩ := Prod.mk.inj (Except.ok.inj (hparse.symm.trans hput))
        exact hsame heq
      have hne : recordKey ≠ key' := fun heq => hsame heq.symm
      refine .inl ⟨?_, fun hput => (hother hput).elim⟩
      generalize t.durable = D at hsettles ⊢
      cases hsettles with
      | kept => exact h
      | installed =>
        exact h.of_same (by simp [identityWrite, hne]) (by simp [identityWrite, hne])
  · rw [not_exists] at hidentity
    have hsome : d.durableStore.isSome = true := by rw [hd]; rfl
    obtain ⟨x', t', hrun', hdurable, -⟩ :=
      @run_inboundPut_other rt d answer s key value hsome hidentity
    obtain ⟨-, rfl⟩ := Prod.mk.inj (hrun.symm.trans hrun')
    exact .inl ⟨h.of_same (hdurable.head _) (hdurable.history _),
      fun hput => (hidentity _ hput).elim⟩

/-- **A stored history grows at its end.** -/
theorem HoldsHistory.puts (hs : Consistent rt s) (h : HoldsHistory rt recordKey l s.durable)
    (values : List (Bytes × Bytes)) : ∃ appended,
      HoldsHistory rt recordKey (l ++ appended) (inboundPuts rt d answer s values).durable ∧
      appended.Sublist (values.map (·.2)) := by
  induction values generalizing s l with
  | nil => exact ⟨[], by simpa using h, .slnil⟩
  | cons p values ih =>
    obtain ⟨x, t, hrun, ht, hput⟩ := @HoldsHistory.put rt d answer s recordKey l hd hrt henc hs h p
    rw [← Prod.mk.eta (p := p), inboundPuts_cons, hrun]
    rcases hput with ⟨hholds, -⟩ | hholds
    · obtain ⟨appended, hholds, hsublist⟩ := ih ht hholds
      exact ⟨appended, hholds, hsublist.cons _⟩
    · obtain ⟨appended, hholds, hsublist⟩ := ih ht hholds
      refine ⟨p.2 :: appended, ?_, hsublist.cons_cons _⟩
      rwa [List.append_cons]

/-- **Puts only extend a stored history.** From any state of a run of values put by peers, whatever
is put next, the history that is kept of a record grows at its end, by values that were put, in
their order; and any accepted history from the same anchor is comparable with it, or the two are
evidence against a signer who signed two successors of a SignedUpdate in both. -/
theorem inboundPuts_extend_history (run : InboundRun rt d answer s)
    (holds : HoldsHistory rt recordKey l s.durable) (values : List (Bytes × Bytes)) : ∃ appended,
      HoldsHistory rt recordKey (l ++ appended) (inboundPuts rt d answer s values).durable ∧
      appended.Sublist (values.map (·.2)) ∧
      ∀ l' s', validateMultisignatureHistory rt recordKey l' = .ok s' →
        l.head?.map (signedUpdateOf rt) = l'.head?.map (signedUpdateOf rt) →
        (l ++ appended).map (signedUpdateOf rt) <+: l'.map (signedUpdateOf rt) ∨
          l'.map (signedUpdateOf rt) <+: (l ++ appended).map (signedUpdateOf rt) ∨
          ForkEvidence rt (l ++ appended) l' := by
  obtain ⟨appended, hholds, hsublist⟩ :=
    @HoldsHistory.puts rt d answer s recordKey l hd hrt henc
      (inboundRun_consistent hd hrt henc run) holds values
  refine ⟨appended, hholds, hsublist, fun l' s' h' same => ?_⟩
  obtain ⟨u, hu⟩ := hholds.accepted
  have hhead : (l ++ appended).head? = l.head? := by
    obtain ⟨v, hv⟩ := holds.accepted
    rw [List.head?_append_of_ne_nil _ (ne_nil_of_history hv)]
  exact comparable_or_forkEvidence hu h' (hhead ▸ same)

end Runs

/-! ## Catching up -/

/-- Beside a history without evidence of a fork, an accepted history that carries a beginning of it,
and more, carries the next entry. -/
theorem prefix_snoc_of_loyal {done pending : List Bytes} {u v : MultisignatureState}
    (history : validateMultisignatureHistory rt recordKey (done ++ e :: pending) = .ok u)
    (hdone : done ≠ []) (loyal : ¬ ForkEvidence rt (done ++ e :: pending) l)
    (hl : validateMultisignatureHistory rt recordKey l = .ok v)
    (hbegins : done.map (signedUpdateOf rt) <+: l.map (signedUpdateOf rt))
    (hlength : done.length < l.length) :
    (done ++ [e]).map (signedUpdateOf rt) <+: l.map (signedUpdateOf rt) := by
  have hwhole : (done ++ [e]).map (signedUpdateOf rt) <+:
      (done ++ e :: pending).map (signedUpdateOf rt) := ⟨pending.map (signedUpdateOf rt), by simp⟩
  have same : (done ++ e :: pending).head?.map (signedUpdateOf rt) =
      l.head?.map (signedUpdateOf rt) := by
    obtain ⟨a, done, rfl⟩ := List.exists_cons_of_ne_nil hdone
    obtain ⟨rest, hrest⟩ := hbegins
    rw [← List.head?_map, ← List.head?_map, ← hrest]
    rfl
  rcases comparable_or_forkEvidence history hl same with h | h | hfork
  · exact hwhole.trans h
  · refine List.prefix_of_prefix_length_le hwhole h ?_
    simp only [List.length_map, List.length_append, List.length_singleton]
    omega
  · exact (loyal hfork).elim

/-- What extends a history carries the next entry of the history that it carries the beginning
of. -/
theorem prefix_snoc_of_put {done pending l' : List Bytes} {u v w : MultisignatureState}
    (history : validateMultisignatureHistory rt recordKey (done ++ e :: pending) = .ok u)
    (hdone : validateMultisignatureHistory rt recordKey done = .ok v)
    (loyal : ¬ ForkEvidence rt (done ++ e :: pending) l)
    (hl : validateMultisignatureHistory rt recordKey l = .ok w)
    (hbegins : done.map (signedUpdateOf rt) <+: l.map (signedUpdateOf rt))
    (hput : l' = l ++ [e] ∨ l' = l ∧
      ∀ u, validateMultisignatureHistory rt recordKey (l ++ [e]) ≠ .ok u) :
    (done ++ [e]).map (signedUpdateOf rt) <+: l'.map (signedUpdateOf rt) := by
  rcases hbegins.length_le.lt_or_eq with hlt | heq
  · simp only [List.length_map] at hlt
    have hcarries := prefix_snoc_of_loyal history (ne_nil_of_history hdone) loyal hl hbegins hlt
    rcases hput with rfl | ⟨rfl, -⟩
    · exact hcarries.trans ((List.prefix_append _ _).map _)
    · exact hcarries
  · have same := hbegins.eq_of_length heq
    obtain ⟨next, hnext⟩ := history_of_append hdone history
    obtain ⟨x, hx⟩ := extends_of_sameUpdates hdone hl same hnext
    rcases hput with rfl | ⟨-, hrefused⟩
    · rw [List.map_append, List.map_append, same]
    · exact (hrefused x hx).elim

/-- A store keeps one history of a record. -/
theorem HoldsHistory.unique {l' : List Bytes} (h : HoldsHistory rt recordKey l D)
    (h' : HoldsHistory rt recordKey l' D) : l = l' :=
  Option.some.inj (h.stored.symm.trans h'.stored)

section CatchUp

variable (hd : d.durableStore = some ⟨true, true⟩) (hrt : rt.RoundTrips) (henc : rt.EncodesAccepted)

include hd hrt henc

/-- What a store keeps in the end has what it keeps before. -/
theorem HoldsHistory.subset_of_puts (hs : Consistent rt s)
    (h : HoldsHistory rt recordKey l s.durable) {values : List (Bytes × Bytes)} {final : List Bytes}
    (hfinal : HoldsHistory rt recordKey final (inboundPuts rt d answer s values).durable) :
    l ⊆ final := by
  obtain ⟨appended, hholds, -⟩ :=
    @HoldsHistory.puts rt d answer s recordKey l hd hrt henc hs h values
  rw [hfinal.unique hholds]
  exact List.subset_append_left _ _

/-- **Whoever puts a history brings the instance up to it**, where the history and what is stored in
the end are no evidence of a fork. -/
theorem HoldsHistory.catches_up {delivered values : List (Bytes × Bytes)}
    (hsublist : delivered.Sublist values) (hs : Consistent rt s)
    (h : HoldsHistory rt recordKey l s.durable) {final : List Bytes}
    (hfinal : HoldsHistory rt recordKey final (inboundPuts rt d answer s values).durable)
    {done : List Bytes} {u v : MultisignatureState}
    (hdone : validateMultisignatureHistory rt recordKey done = .ok v)
    (history : validateMultisignatureHistory rt recordKey (done ++ delivered.map (·.2)) = .ok u)
    (loyal : ¬ ForkEvidence rt (done ++ delivered.map (·.2)) final)
    (under : ∀ p ∈ delivered, PutUnder recordKey p)
    (hbegins : done.map (signedUpdateOf rt) <+: l.map (signedUpdateOf rt)) :
    (done ++ delivered.map (·.2)).map (signedUpdateOf rt) <+: final.map (signedUpdateOf rt) := by
  induction hsublist generalizing s l done v with
  | slnil =>
    obtain rfl := hfinal.unique h
    simpa using hbegins
  | @cons delivered values p _ ih =>
    -- any other value leaves the beginning in place
    obtain ⟨x, t, hrun, ht, hput⟩ := @HoldsHistory.put rt d answer s recordKey l hd hrt henc hs h p
    rw [← Prod.mk.eta (p := p), inboundPuts_cons, hrun] at hfinal
    rcases hput with ⟨hholds, -⟩ | hholds
    · exact ih ht hholds hfinal hdone history loyal under hbegins
    · exact ih ht hholds hfinal hdone history loyal under
        (hbegins.trans ((List.prefix_append _ _).map _))
  | @cons_cons delivered values p _ ih =>
    have hkept := h.subset_of_puts hd hrt henc hs hfinal
    obtain ⟨x, t, hrun, ht, hput⟩ := @HoldsHistory.put rt d answer s recordKey l hd hrt henc hs h p
    rw [← Prod.mk.eta (p := p), inboundPuts_cons, hrun] at hfinal
    obtain ⟨w, hw⟩ := h.accepted
    rw [List.map_cons] at history loyal
    have loyal' : ¬ ForkEvidence rt (done ++ p.2 :: delivered.map (·.2)) l :=
      fun hfork => loyal (hfork.mono (List.Subset.refl _) hkept)
    obtain ⟨next, hnext⟩ := history_of_append hdone history
    have under' : ∀ p ∈ delivered, PutUnder recordKey p :=
      fun q hq => under q (List.mem_cons_of_mem _ hq)
    obtain ⟨l', hholds, hl'⟩ : ∃ l', HoldsHistory rt recordKey l' t.durable ∧
        (l' = l ++ [p.2] ∨ l' = l ∧
          ∀ u, validateMultisignatureHistory rt recordKey (l ++ [p.2]) ≠ .ok u) := by
      rcases hput with ⟨hholds, hrefused⟩ | hholds
      · exact ⟨l, hholds, .inr ⟨rfl, hrefused (under p List.mem_cons_self)⟩⟩
      · exact ⟨_, hholds, .inl rfl⟩
    have hnow := prefix_snoc_of_put history hdone loyal' hw hbegins hl'
    rw [List.map_cons, List.append_cons]
    rw [List.append_cons] at history loyal
    exact ih ht hholds hfinal hnext history loyal under' hnow

/-- **Delivery of a history.** From any state of a run of values put by peers that carries the
beginning of an accepted history, once the other entries of that history have been put in their
order, under whatever spellings of the key and whatever else was put in between, the stored history,
which has grown by values that were put, carries all of its SignedUpdates, or the two are evidence
against a signer who signed two successors of a SignedUpdate in both. -/
theorem inboundPuts_catch_up (run : InboundRun rt d answer s)
    (holds : HoldsHistory rt recordKey l s.durable) {delivered values : List (Bytes × Bytes)}
    (hsublist : delivered.Sublist values) (under : ∀ p ∈ delivered, PutUnder recordKey p)
    {done : List Bytes} {u v : MultisignatureState}
    (hdone : validateMultisignatureHistory rt recordKey done = .ok v)
    (history : validateMultisignatureHistory rt recordKey (done ++ delivered.map (·.2)) = .ok u)
    (hbegins : done.map (signedUpdateOf rt) <+: l.map (signedUpdateOf rt)) :
    ∃ appended,
      HoldsHistory rt recordKey (l ++ appended) (inboundPuts rt d answer s values).durable ∧
      appended.Sublist (values.map (·.2)) ∧
      ((done ++ delivered.map (·.2)).map (signedUpdateOf rt) <+:
          (l ++ appended).map (signedUpdateOf rt) ∨
        ForkEvidence rt (done ++ delivered.map (·.2)) (l ++ appended)) := by
  have hs := inboundRun_consistent hd hrt henc run
  obtain ⟨appended, hfinal, hvalues⟩ :=
    @HoldsHistory.puts rt d answer s recordKey l hd hrt henc hs holds values
  refine ⟨appended, hfinal, hvalues, ?_⟩
  by_cases hfork : ForkEvidence rt (done ++ delivered.map (·.2)) (l ++ appended)
  · exact .inr hfork
  · exact .inl (holds.catches_up hd hrt henc hsublist hs hfinal hdone history hfork under hbegins)

end CatchUp

/-! ## Samples -/

/-- The key of the sample Identity. -/
def Sample.dhtKey : Bytes := utf8 (kadKey (toHex Sample.identityKey) .identity)

theorem Sample.parse_dhtKey :
    decodeUtf8 Sample.dhtKey >>= parseKey = .ok (.identity, Sample.identityKey) :=
  parse_eq_ok.2 ⟨toHex Sample.identityKey, rfl, fromHex_toHex _, Sample.runtime.sha256_length _⟩

/-- An instance to which a peer put a legacy Identity and then its upgrade. -/
def Sample.upgraded : DhtState :=
  inboundPuts Sample.longRuntime Sample.node (Environment.constantly none).answer
    (Sample.stateOver .empty)
      [(Sample.dhtKey, Sample.legacyIdentity), (Sample.dhtKey, Sample.upgrade)]

theorem Sample.upgraded_run :
    InboundRun Sample.longRuntime Sample.node
      (Environment.constantly none).answer Sample.upgraded :=
  (InboundRun.start rfl rfl).puts _

/-- An accepted Identity that a peer puts is the head. -/
theorem Sample.put_accepted {s : DhtState}
    (hs : InboundRun Sample.longRuntime Sample.node (Environment.constantly none).answer s)
    (hne : s.durable.get .identity Sample.identityKey ≠ some e) {r : IdentityOverwriteResult}
    (hr : validateIdentityOverwrite Sample.longRuntime Sample.identityKey e
      (s.durable.get .identity Sample.identityKey)
      (historyEndingAt (s.durable.getHistory Sample.longRuntime .identity Sample.identityKey)
        (s.durable.get .identity Sample.identityKey)) = .ok r) :
    ((run (Environment.constantly none).answer
        (inboundPut Sample.longRuntime Sample.node Sample.dhtKey e) s).2.durable.get .identity
          Sample.identityKey = some e) ∧
      (run (Environment.constantly none).answer (inboundPut Sample.longRuntime Sample.node
        Sample.dhtKey e) s).2.durable.getHistory Sample.longRuntime .identity Sample.identityKey =
          r.state.bind (·.history) := by
  have henc : Sample.longRuntime.EncodesAccepted :=
    ⟨Sample.isSome_dumps_metadata, Sample.isSome_dumps_history⟩
  obtain ⟨x, t, hrun, hsettles⟩ := run_inboundPut_settles (d := Sample.node) (e := e) rfl
    Sample.longRuntime_roundTrips henc (fromHex_toHex Sample.identityKey)
    (Sample.runtime.sha256_length _)
    (inboundRun_consistent rfl Sample.longRuntime_roundTrips henc hs)
  rw [Sample.dhtKey, hrun]
  exact hsettles.head_of_accepted Sample.longRuntime_roundTrips hne hr

/-- The legacy Identity is put on an instance that has nothing. -/
theorem Sample.legacy_put :
    (run (Environment.constantly none).answer (inboundPut Sample.longRuntime Sample.node
      Sample.dhtKey Sample.legacyIdentity) (Sample.stateOver .empty)).2.durable.get .identity
        Sample.identityKey = some Sample.legacyIdentity ∧
    (run (Environment.constantly none).answer (inboundPut Sample.longRuntime Sample.node
      Sample.dhtKey Sample.legacyIdentity) (Sample.stateOver .empty)).2.durable.getHistory
        Sample.longRuntime .identity Sample.identityKey = none := by
  have hlegacy : (fun r : IdentityOverwriteResult => r.state.bind (·.history)) <$>
      validateIdentityOverwrite Sample.longRuntime Sample.identityKey Sample.legacyIdentity none
        none = .ok none := by
    decide +kernel
  obtain ⟨r, hr, hhistory⟩ := map_eq_ok.1 hlegacy
  rw [← hhistory]
  have hnone : (Sample.stateOver .empty).durable.get .identity Sample.identityKey = none := rfl
  refine Sample.put_accepted (.start rfl rfl) (by rw [hnone]; simp) ?_
  rw [hnone]
  exact hr

theorem Sample.upgraded_holds : HoldsHistory Sample.longRuntime Sample.identityKey
    [Sample.legacyIdentity, Sample.upgrade] Sample.upgraded.durable := by
  obtain ⟨hupgrade, haccepted, hne⟩ :
      (fun r : IdentityOverwriteResult => r.state.bind (·.history)) <$>
        validateIdentityOverwrite Sample.longRuntime Sample.identityKey Sample.upgrade
          (some Sample.legacyIdentity) none = .ok (some [Sample.legacyIdentity, Sample.upgrade]) ∧
      (validateMultisignatureHistory Sample.longRuntime Sample.identityKey
        [Sample.legacyIdentity, Sample.upgrade]).isOk = true ∧
      Sample.legacyIdentity ≠ Sample.upgrade := by
    decide +kernel
  obtain ⟨r, hr, hhistory⟩ := map_eq_ok.1 hupgrade
  obtain ⟨hhead, hstored⟩ := Sample.legacy_put
  have hrun := @InboundRun.start Sample.longRuntime Sample.node
    (Environment.constantly none).answer (Sample.stateOver .empty) rfl rfl
  obtain ⟨hhead', hstored'⟩ := Sample.put_accepted (hrun.put Sample.dhtKey Sample.legacyIdentity)
    (e := Sample.upgrade) (by rw [hhead]; simpa using hne) (r := r) (by
      rw [hhead, hstored]
      exact hr)
  rw [hhistory] at hstored'
  rw [Sample.upgraded, inboundPuts_cons, inboundPuts_cons, inboundPuts_nil]
  exact ⟨hstored', hhead', _, eq_ok_valueOf haccepted⟩

/-- Two replacements of the signers are put over the upgrade. -/
theorem sampleReplacements_extend : ∃ appended,
    HoldsHistory Sample.longRuntime Sample.identityKey
      ([Sample.legacyIdentity, Sample.upgrade] ++ appended)
      (inboundPuts Sample.longRuntime Sample.node
        (Environment.constantly none).answer Sample.upgraded
        [(Sample.dhtKey, Sample.partialReplacement), (Sample.dhtKey, Sample.replacement)]).durable ∧
    appended.Sublist [Sample.partialReplacement, Sample.replacement] := by
  obtain ⟨appended, hholds, hsublist, -⟩ := inboundPuts_extend_history rfl
    Sample.longRuntime_roundTrips ⟨Sample.isSome_dumps_metadata, Sample.isSome_dumps_history⟩
    Sample.upgraded_run Sample.upgraded_holds
    [(Sample.dhtKey, Sample.partialReplacement), (Sample.dhtKey, Sample.replacement)]
  exact ⟨appended, hholds, by simpa only [List.map_cons, List.map_nil] using hsublist⟩

/-- Of the envelopes that the sample values come to, no two carry different SignedUpdates that name
one predecessor. -/
theorem Sample.no_forkEvidence {m : List Bytes}
    (hm : m ⊆ [Sample.legacyIdentity, Sample.upgrade, Sample.replacement, []]) :
    ¬ ForkEvidence Sample.longRuntime
      [Sample.legacyIdentity, Sample.upgrade, Sample.replacement] m := by
  have hnames : ∀ y ∈ [Sample.legacyIdentity, Sample.upgrade, Sample.replacement],
      ∀ z ∈ [Sample.legacyIdentity, Sample.upgrade, Sample.replacement, []],
        ((signedUpdateOf Sample.longRuntime y).toOption.bind
            (namedPredecessor Sample.longRuntime)).isSome = true →
        (signedUpdateOf Sample.longRuntime y).toOption.bind
            (namedPredecessor Sample.longRuntime) =
          (signedUpdateOf Sample.longRuntime z).toOption.bind
            (namedPredecessor Sample.longRuntime) →
        signedUpdateOf Sample.longRuntime y = signedUpdateOf Sample.longRuntime z := by
    decide +kernel
  rintro ⟨u, k, -, -, -, y, hy, z, hz, hne, ⟨_, v, ⟨⟩, hv, hnamed⟩, ⟨_, w, ⟨⟩, hw, hnamed'⟩, -⟩
  change signedUpdateOf Sample.longRuntime y = .ok v at hv
  change signedUpdateOf Sample.longRuntime z = .ok w at hw
  refine hne (hnames y hy z (hm hz) ?_ ?_)
  · rw [hv]
    exact Option.isSome_iff_exists.2 ⟨_, hnamed⟩
  · rw [hv, hw]
    exact hnamed.trans hnamed'.symm

/-- The replacement of the signers is put after something else, and stored. -/
theorem sampleReplacement_delivered : ∃ appended,
    HoldsHistory Sample.longRuntime Sample.identityKey
      ([Sample.legacyIdentity, Sample.upgrade] ++ appended)
      (inboundPuts Sample.longRuntime Sample.node (Environment.constantly none).answer
        Sample.upgraded [([], []), (Sample.dhtKey, Sample.replacement)]).durable ∧
    [Sample.legacyIdentity, Sample.upgrade, Sample.replacement].map
        (signedUpdateOf Sample.longRuntime) <+:
      ([Sample.legacyIdentity, Sample.upgrade] ++ appended).map
        (signedUpdateOf Sample.longRuntime) := by
  have history : (validateMultisignatureHistory Sample.longRuntime Sample.identityKey
      [Sample.legacyIdentity, Sample.upgrade, Sample.replacement]).isOk = true := by
    decide +kernel
  obtain ⟨_, hdone⟩ := Sample.upgraded_holds.accepted
  have hsublist : [(Sample.dhtKey, Sample.replacement)].Sublist
      [([], []), (Sample.dhtKey, Sample.replacement)] := (List.Sublist.refl _).cons _
  have hunder : ∀ p ∈ [(Sample.dhtKey, Sample.replacement)], PutUnder Sample.identityKey p := by
    intro p hp
    obtain rfl := List.mem_singleton.1 hp
    exact Sample.parse_dhtKey
  have hwhole : [Sample.legacyIdentity, Sample.upgrade] ++
      [(Sample.dhtKey, Sample.replacement)].map (·.2) =
        [Sample.legacyIdentity, Sample.upgrade, Sample.replacement] := by
    simp only [List.map_cons, List.map_nil, List.cons_append, List.nil_append]
  rw [← hwhole] at history
  obtain ⟨appended, hholds, hvalues, hdelivered⟩ := inboundPuts_catch_up rfl
    Sample.longRuntime_roundTrips ⟨Sample.isSome_dumps_metadata, Sample.isSome_dumps_history⟩
    Sample.upgraded_run Sample.upgraded_holds hsublist hunder hdone
    (eq_ok_valueOf history) (List.prefix_refl _)
  rw [hwhole] at hdelivered
  refine ⟨appended, hholds, hdelivered.resolve_right (Sample.no_forkEvidence ?_)⟩
  simp only [List.map_cons, List.map_nil] at hvalues
  refine List.append_subset.2 ⟨?_, List.Subset.trans hvalues.subset ?_⟩
  · exact List.cons_subset_cons _ (List.cons_subset_cons _ (List.nil_subset _))
  · refine List.cons_subset.2 ⟨?_, List.cons_subset.2 ⟨?_, List.nil_subset _⟩⟩
    · exact .tail _ (.tail _ (.tail _ (.head _)))
    · exact .tail _ (.tail _ (.head _))

end DecentRegistry
