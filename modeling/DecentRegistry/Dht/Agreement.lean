import DecentRegistry.Authority.Extension
import DecentRegistry.Authority.Forks
import DecentRegistry.Dht.IdentityRead
import DecentRegistry.Dht.Succession

/-!
# Agreement of Identity reads

The sequence numbers go up along an accepted history (`history_pairwise_before`). Of two comparable
histories, the one with the smaller sequence number at its end is therefore the beginning of the
other (`prefix_of_seq_le`). So what any two instances read of an Identity, at any time and from any
peers, lies on one line, or the anchors differ, or the two chains are evidence against a signer who
signed two successors of one SignedUpdate (`identityReads_agree_or_equivocate`). -/

namespace DecentRegistry

open Fallible PyValue Coroutine Forks

variable {rt : Runtime} {recordKey : Bytes}

/-! ## Sequence numbers along a history -/

/-- The sequence number of one SignedUpdate is below that of another. -/
def SeqBefore (rt : Runtime) (x y : Py Bytes) : Prop :=
  ∃ u v previous next, x = .ok u ∧ y = .ok v ∧ decodeCanonicalSignedUpdate rt u = .ok previous ∧
    decodeCanonicalSignedUpdate rt v = .ok next ∧ previous.seq < next.seq

theorem SeqBefore.trans {x y z : Py Bytes} (h : SeqBefore rt x y) (h' : SeqBefore rt y z) :
    SeqBefore rt x z := by
  obtain ⟨u, v, previous, next, rfl, rfl, hu, hv, hlt⟩ := h
  obtain ⟨v', w, previous', next', heq, rfl, hv', hw, hlt'⟩ := h'
  obtain rfl := Except.ok.inj heq
  obtain rfl := Except.ok.inj (hv.symm.trans hv')
  exact ⟨u, w, previous, next', rfl, rfl, hu, hw, hlt.trans hlt'⟩

theorem seqBefore_of_reads {p : Candidate} {e x u : Bytes} {previous : SignedUpdate}
    (hp : p.Reads rt e) (hu : signedUpdateOf rt x = .ok u)
    (hprevious : decodeCanonicalSignedUpdate rt u = .ok previous) (hlt : previous.seq < p.seq) :
    SeqBefore rt (signedUpdateOf rt x) (signedUpdateOf rt e) :=
  ⟨u, p.signedUpdateBytes, previous, _, hu, signedUpdateOf_candidate hp, hprevious,
    decodeMultisignatureSignedUpdate_eq_ok.1 hp.update, hlt⟩

/-- The sequence number goes up with the last step of a run. -/
theorem StepwiseRun.seqBefore {l : List Bytes} {x y : Bytes} {s : MultisignatureState}
    (run : StepwiseRun rt recordKey (l ++ [x] ++ [y]) s) :
    SeqBefore rt (signedUpdateOf rt x) (signedUpdateOf rt y) := by
  rcases run.snoc_cases with ⟨hnil, -⟩ | ⟨anchor, r, hanchor, -, h⟩ | ⟨t, run', h⟩
  · simp at hnil
  · obtain ⟨-, rfl⟩ : l = [] ∧ x = anchor := by
      simpa using List.append_eq_singleton_iff.1 hanchor
    obtain ⟨p, history, hp, hstep, -, -⟩ := validateMultisignatureUpdate_eq_ok.1 h
    obtain ⟨legacy, hreads, hlt⟩ := hstep.seq_of_legacy
    exact seqBefore_of_reads hp (signedUpdateOf_legacy hreads) hreads.update hlt
  · obtain ⟨p, history, hp, hstep, -, -⟩ := validateMultisignatureUpdate_eq_ok.1 h
    obtain ⟨q, _, hq, ht⟩ := run'.reads
    have hlt := hstep.seq_of_state
    rw [(hq.state ht).seq] at hlt
    exact seqBefore_of_reads hp (signedUpdateOf_candidate hq)
      (decodeMultisignatureSignedUpdate_eq_ok.1 hq.update) hlt

theorem StepwiseRun.pairwise_before {l : List Bytes} {s : MultisignatureState}
    (run : StepwiseRun rt recordKey l s) : (l.map (signedUpdateOf rt)).Pairwise (SeqBefore rt) := by
  induction run with
  | genesis h _ => simp
  | @legacy anchor e r s first h =>
    have hbefore := StepwiseRun.seqBefore (l := []) (StepwiseRun.legacy first h)
    simpa using hbefore
  | @step l e s t run h ih =>
    rw [List.map_append, List.pairwise_append]
    refine ⟨ih, List.pairwise_singleton _ _, ?_⟩
    rintro a ha b hb
    obtain rfl := List.mem_singleton.1 hb
    obtain ⟨l, x, rfl⟩ : ∃ l' x, l = l' ++ [x] :=
      ⟨_, _, (List.dropLast_append_getLast run.ne_nil).symm⟩
    have hlast := (run.step h).seqBefore
    rw [List.map_append, List.mem_append] at ha
    rcases ha with ha | ha
    · rw [List.map_append] at ih
      exact ((List.pairwise_append.1 ih).2.2 a ha _ List.mem_cons_self).trans hlast
    · obtain rfl := List.mem_singleton.1 ha
      exact hlast

/-- **The sequence numbers go up** along an accepted history. -/
theorem history_pairwise_before {l : List Bytes} {s : MultisignatureState}
    (h : validateMultisignatureHistory rt recordKey l = .ok s) :
    (l.map (signedUpdateOf rt)).Pairwise (SeqBefore rt) :=
  (stepwiseRun_of_history h).pairwise_before

/-! ## Reads -/

/-- What ends an accepted history has a sequence number. -/
theorem TrustedChain.seq {chain : List Bytes} {e : Bytes} (h : TrustedChain rt recordKey chain e) :
    ∃ u update, signedUpdateOf rt e = .ok u ∧ decodeCanonicalSignedUpdate rt u = .ok update ∧
      envelopeSeq rt e = .ok update.seq := by
  obtain ⟨s, hs⟩ := h.accepted
  obtain ⟨x, p, history, hlast, hp, -⟩ := history_reads hs
  obtain rfl := Option.some.inj (h.last.symm.trans hlast)
  exact ⟨_, _, signedUpdateOf_candidate hp, decodeMultisignatureSignedUpdate_eq_ok.1 hp.update,
    hp.isHead.seq⟩

/-- Of two comparable trusted chains, the one with the smaller sequence number at its end is the
beginning. -/
theorem prefix_of_seq_le {l l' : List Bytes} {e e' : Bytes} {n n' : ℕ}
    (h : TrustedChain rt recordKey l e) (h' : TrustedChain rt recordKey l' e')
    (hn : envelopeSeq rt e = .ok n) (hn' : envelopeSeq rt e' = .ok n') (hle : n ≤ n')
    (comparable : l.map (signedUpdateOf rt) <+: l'.map (signedUpdateOf rt) ∨
      l'.map (signedUpdateOf rt) <+: l.map (signedUpdateOf rt)) :
    l.map (signedUpdateOf rt) <+: l'.map (signedUpdateOf rt) := by
  obtain ⟨s, hs⟩ := h.accepted
  refine prefix_of_not_lt comparable (history_pairwise_before hs)
    (by rw [List.getLast?_map, h.last]; rfl)
    (by rw [List.getLast?_map, h'.last]; rfl) ?_
  rintro ⟨u, v, previous, next, hu, hv, hprevious, hnext, hlt⟩
  obtain ⟨w, update, hw, hupdate, hseq⟩ := h.seq
  obtain ⟨w', update', hw', hupdate', hseq'⟩ := h'.seq
  obtain rfl := Except.ok.inj (hw.symm.trans hv)
  obtain rfl := Except.ok.inj (hw'.symm.trans hu)
  obtain rfl := Except.ok.inj (hupdate.symm.trans hnext)
  obtain rfl := Except.ok.inj (hupdate'.symm.trans hprevious)
  obtain rfl := Except.ok.inj (hseq.symm.trans hn)
  obtain rfl := Except.ok.inj (hseq'.symm.trans hn')
  omega

/-- Two chains lie on one line: the one that ends with the smaller sequence number carries a
beginning of the SignedUpdates of the other. -/
structure OnOneLine (rt : Runtime) (l l' : List Bytes) (n n' : ℕ) : Prop where
  before : n ≤ n' → l.map (signedUpdateOf rt) <+: l'.map (signedUpdateOf rt)
  after : n' ≤ n → l'.map (signedUpdateOf rt) <+: l.map (signedUpdateOf rt)

/-- How two trusted chains of a record compare. -/
inductive Agree (rt : Runtime) (l l' : List Bytes) (n n' : ℕ) : Prop
  | otherAnchor (h : l.head?.map (signedUpdateOf rt) ≠ l'.head?.map (signedUpdateOf rt)) :
    Agree rt l l' n n'
  | equivocation (h : ForkEvidence rt l l') : Agree rt l l' n n'
  | onOneLine (h : OnOneLine rt l l' n n') : Agree rt l l' n n'

theorem agree_of_trusted {l l' : List Bytes} {e e' : Bytes} {n n' : ℕ}
    (h : TrustedChain rt recordKey l e) (h' : TrustedChain rt recordKey l' e')
    (hn : envelopeSeq rt e = .ok n) (hn' : envelopeSeq rt e' = .ok n') : Agree rt l l' n n' := by
  by_cases same : l.head?.map (signedUpdateOf rt) = l'.head?.map (signedUpdateOf rt)
  · obtain ⟨s, hs⟩ := h.accepted
    obtain ⟨s', hs'⟩ := h'.accepted
    rcases comparable_or_forkEvidence hs hs' same with hbegins | hbegins | hfork
    · exact .onOneLine ⟨fun _ => hbegins,
        fun hle => prefix_of_seq_le h' h hn' hn hle (.inr hbegins)⟩
    · exact .onOneLine ⟨fun hle => prefix_of_seq_le h h' hn hn' hle (.inr hbegins),
        fun _ => hbegins⟩
    · exact .equivocation hfork
  · exact .otherAnchor same

/-- A returned multisignature envelope ends a trusted chain. -/
theorem EnvelopeTrusted.chain {objectKeyHex : Text} {x : Py (Option Bytes)} {e : Bytes}
    (h : EnvelopeTrusted rt objectKeyHex x) (hx : x = .ok (some e))
    (hkey : fromHex objectKeyHex = .ok recordKey) (he : isMultisignatureEnvelope rt e = true) :
    ∃ chain n, TrustedChain rt recordKey chain e ∧ envelopeSeq rt e = .ok n := by
  obtain ⟨recordKey', chain, hkey', hchain⟩ := h e hx he
  obtain rfl := Except.ok.inj (hkey.symm.trans hkey')
  obtain ⟨_, update, -, -, hseq⟩ := hchain.seq
  exact ⟨chain, _, hchain, hseq⟩

/-- **Reads agree, or a signer equivocated.** Two instances, in any states, may read the same
Identity under whatever answers of the DHT and of the peers, and with whatever else happening while
the reads are suspended. Where both return a multisignature Identity, these end trusted chains, and
any two such chains begin at different anchors, or carry the signatures of one key under two
successors of one SignedUpdate, or else the one with the smaller sequence number carries a beginning
of the SignedUpdates of the other. -/
theorem identityReads_agree_or_equivocate (rt : Runtime) (d d' : DhtInstance)
    (objectKeyHex objectKeyHex' : Text) (quorum quorum' : ℕ) (s s' t t' : DhtState)
    (recordKey e e' : Bytes) (hkey : fromHex objectKeyHex = .ok recordKey)
    (hkey' : fromHex objectKeyHex' = .ok recordKey)
    (read : Runs (fun _ _ _ _ => True) (getIdentityEnvelope rt d objectKeyHex quorum) s
      (.ok (some e)) t)
    (read' : Runs (fun _ _ _ _ => True) (getIdentityEnvelope rt d' objectKeyHex' quorum') s'
      (.ok (some e')) t')
    (he : isMultisignatureEnvelope rt e = true) (he' : isMultisignatureEnvelope rt e' = true) :
    (∃ l, TrustedChain rt recordKey l e) ∧ (∃ l', TrustedChain rt recordKey l' e') ∧
      ∃ n n', envelopeSeq rt e = .ok n ∧ envelopeSeq rt e' = .ok n' ∧
        ∀ l l', TrustedChain rt recordKey l e → TrustedChain rt recordKey l' e' →
          Agree rt l l' n n' := by
  obtain ⟨l, n, hl, hn⟩ := EnvelopeTrusted.chain
    (getIdentityEnvelope_trusted read) rfl hkey he
  obtain ⟨l', n', hl', hn'⟩ := EnvelopeTrusted.chain
    (getIdentityEnvelope_trusted read') rfl hkey' he'
  exact ⟨⟨l, hl⟩, ⟨l', hl'⟩, n, n', hn, hn', fun _ _ h h' => agree_of_trusted h h' hn hn'⟩

/-- An instance with an empty store and one that keeps the genesis, whose peers know no Identity. -/
theorem sampleReads_agree :
    ∃ t t' l l' n n',
      Runs (fun _ _ _ _ => True)
        (getIdentityEnvelope Sample.runtime Sample.node (toHex Sample.identityKey) 0)
        (Sample.stateOver .empty) (.ok (some Sample.identityGenesis)) t ∧
      Runs (fun _ _ _ _ => True)
        (getIdentityEnvelope Sample.runtime Sample.node (toHex Sample.identityKey) 1) t
        (.ok (some Sample.identityGenesis)) t' ∧
      TrustedChain Sample.runtime Sample.identityKey l Sample.identityGenesis ∧
      TrustedChain Sample.runtime Sample.identityKey l' Sample.identityGenesis ∧
      envelopeSeq Sample.runtime Sample.identityGenesis = .ok n ∧
      envelopeSeq Sample.runtime Sample.identityGenesis = .ok n' ∧
      Agree Sample.runtime l l' n n' := by
  have hrun := runs_run (fun _ _ _ _ => True) (Sample.answers (some Sample.identityGenesis))
    (fun _ _ => trivial)
    (getIdentityEnvelope Sample.runtime Sample.node (toHex Sample.identityKey) 0)
    (Sample.stateOver .empty)
  have hrun' := runs_run (fun _ _ _ _ => True) (Sample.answers none) (fun _ _ => trivial)
    (getIdentityEnvelope Sample.runtime Sample.node (toHex Sample.identityKey) 1)
    (run (Sample.answers (some Sample.identityGenesis))
      (getIdentityEnvelope Sample.runtime Sample.node (toHex Sample.identityKey) 0)
      (Sample.stateOver .empty)).2
  obtain ⟨h, h', hmultisig⟩ :
      (run (Sample.answers (some Sample.identityGenesis))
        (getIdentityEnvelope Sample.runtime Sample.node (toHex Sample.identityKey) 0)
        (Sample.stateOver .empty)).1 = .ok (some Sample.identityGenesis) ∧
      (run (Sample.answers none)
        (getIdentityEnvelope Sample.runtime Sample.node (toHex Sample.identityKey) 1)
        (run (Sample.answers (some Sample.identityGenesis))
          (getIdentityEnvelope Sample.runtime Sample.node (toHex Sample.identityKey) 0)
          (Sample.stateOver .empty)).2).1 = .ok (some Sample.identityGenesis) ∧
      isMultisignatureEnvelope Sample.runtime Sample.identityGenesis = true := by
    decide +kernel
  rw [h] at hrun
  rw [h'] at hrun'
  obtain ⟨⟨l, hl⟩, ⟨l', hl'⟩, n, n', hn, hn', hagree⟩ :=
    identityReads_agree_or_equivocate _ _ _ _ _ _ _ _ _ _ _ Sample.identityKey _ _ (fromHex_toHex _)
      (fromHex_toHex _) hrun hrun' hmultisig hmultisig
  exact ⟨_, _, l, l', n, n', hrun, hrun', hl, hl', hn, hn', hagree l l' hl hl'⟩

end DecentRegistry
