import DecentRegistry.Dht.Serving
import DecentRegistry.Foundations.Handling

/-!
# The walk along predecessor hashes

A read of an Identity that has no local history asks the configured peers for it, envelope by
envelope: each names the state hash of the one before. The walk is a coroutine of its own, whose
requests are lookups by state hash (`lookupWalk`), and the method is the walk with each lookup
answered by the peers (`handle_lookupWalk`). Whatever the peers answer, the walk makes at most 255
lookups and returns nothing but a chain of predecessors (`PredecessorChain`), and a chain that the
peers hold is returned (`readRemoteIdentityPredecessorChain_walks`).
-/

namespace DecentRegistry

open Fallible PyValue Coroutine

variable {rt : Runtime} {d : DhtInstance} {objectKeyHex : Text} {current : Bytes}

/-! ## Chains -/

/-- What the SignedUpdate of an envelope decodes to. -/
def DecodesTo (rt : Runtime) (e : Bytes) (update : SignedUpdate) : Prop :=
  ∃ u, envelopeSignedUpdateBytes rt e = .ok u ∧ decodeCanonicalSignedUpdate rt u = .ok update

/-- The SignedUpdate of an envelope has no authorization map, or is a genesis. -/
def StartsChain (rt : Runtime) (e : Bytes) : Prop :=
  ∃ update, DecodesTo rt e update ∧ ∀ a ∈ update.authorization, a.operation = .genesis

/-- The authorization map of an envelope has the given hash for its predecessor's. -/
def Names (rt : Runtime) (e stateHash : Bytes) : Prop :=
  ∃ update a, DecodesTo rt e update ∧ update.authorization = some a ∧
    a.predecessorStateHash = stateHash

/-- Envelopes that lead from a legacy or genesis envelope to the current one, each naming the one
before it, within the limits of a remote history. -/
structure LinkedChain (rt : Runtime) (current : Bytes) (chain : List Bytes) : Prop where
  last : chain.getLast? = some current
  starts : ∀ e ∈ chain.head?, StartsChain rt e
  linked : chain.IsChain fun a b => ∃ h, HasStateHash rt a h ∧ Names rt b h
  distinct : chain.Pairwise fun a b => ∀ h, HasStateHash rt a h → ¬ HasStateHash rt b h
  entries : chain.length ≤ 256
  bytes : (chain.map List.length).sum ≤ 4 * 1024 * 1024

/-- Such a chain in which only the first envelope is a legacy or genesis one. -/
structure PredecessorChain (rt : Runtime) (current : Bytes) (chain : List Bytes) : Prop
    extends LinkedChain rt current chain where
  only : ∀ e ∈ chain.tail, ¬ StartsChain rt e

theorem HasStateHash.unique {e h h' : Bytes} (hh : HasStateHash rt e h)
    (hh' : HasStateHash rt e h') : h = h' := by
  obtain ⟨u, hu, rfl⟩ := hh
  obtain ⟨u', hu', rfl⟩ := hh'
  rw [Except.ok.inj (hu.symm.trans hu')]

/-! ## What the walk reads of an envelope -/

/-- The reading of an envelope that decodes. -/
theorem readPredecessorLink_of_decodes {e h : Bytes} {update : SignedUpdate}
    (hupdate : DecodesTo rt e update) (hhash : HasStateHash rt e h) :
    readPredecessorLink rt e = (do
      match update.authorization with
      | none => return (h, none)
      | some a =>
        if a.operation = .genesis then return (h, none)
        raiseIf (a.predecessorStateHash.length ≠ 32)
          (valueError "Identity predecessor state hash must be 32 bytes")
        return (h, some a.predecessorStateHash)) := by
  obtain ⟨u, hu, rfl⟩ := hhash
  obtain ⟨u', hu', hupdate⟩ := hupdate
  obtain rfl := Except.ok.inj (hu.symm.trans hu')
  simp only [readPredecessorLink, identityPredecessorStateHash, hu, hupdate, ok_bind]
  cases update.authorization with
  | none => rfl
  | some a =>
    by_cases hgenesis : a.operation = .genesis
    · simp only [if_pos hgenesis]
      rfl
    · simp only [if_neg hgenesis, bind_assoc]
      rfl

theorem decodes_of_readPredecessorLink {e h : Bytes} {p : Option Bytes}
    (hlink : readPredecessorLink rt e = .ok (h, p)) :
    HasStateHash rt e h ∧ ∃ update, DecodesTo rt e update := by
  simp only [readPredecessorLink, identityPredecessorStateHash, bind_eq_ok, pure_eq_ok,
    Prod.mk.injEq] at hlink
  obtain ⟨u, hu, _, ⟨u', hu', update, hupdate, -⟩, rfl, -⟩ := hlink
  exact ⟨⟨u, hu, rfl⟩, update, u', hu', hupdate⟩

/-- An envelope that names no predecessor starts a chain. -/
theorem readPredecessorLink_none {e h : Bytes} :
    readPredecessorLink rt e = .ok (h, none) ↔ HasStateHash rt e h ∧ StartsChain rt e := by
  constructor
  · intro hlink
    obtain ⟨hhash, update, hupdate⟩ := decodes_of_readPredecessorLink hlink
    refine ⟨hhash, update, hupdate, fun a ha => ?_⟩
    rw [readPredecessorLink_of_decodes hupdate hhash, Option.mem_def.1 ha] at hlink
    by_contra hgenesis
    simp [hgenesis] at hlink
  · rintro ⟨hhash, update, hupdate, hstarts⟩
    rw [readPredecessorLink_of_decodes hupdate hhash]
    cases ha : update.authorization with
    | none => rfl
    | some a => simp [hstarts a ha, pure, Except.pure]

/-- An envelope that names one does not. -/
theorem readPredecessorLink_some {e h p : Bytes}
    (hlink : readPredecessorLink rt e = .ok (h, some p)) :
    HasStateHash rt e h ∧ ¬ StartsChain rt e ∧ Names rt e p := by
  obtain ⟨hhash, update, hupdate⟩ := decodes_of_readPredecessorLink hlink
  have hnot : ¬ StartsChain rt e := by
    intro hstarts
    have := hlink.symm.trans (readPredecessorLink_none.2 ⟨hhash, hstarts⟩)
    simp at this
  rw [readPredecessorLink_of_decodes hupdate hhash] at hlink
  refine ⟨hhash, hnot, ?_⟩
  cases ha : update.authorization with
  | none => simp [ha] at hlink
  | some a =>
    by_cases hgenesis : a.operation = .genesis
    · simp [ha, hgenesis] at hlink
    · simp [ha, hgenesis] at hlink
      exact ⟨update, a, hupdate, ha, hlink.2⟩

theorem readPredecessorLink_of_names {e h p : Bytes} (hhash : HasStateHash rt e h)
    (hnot : ¬ StartsChain rt e) (hnames : Names rt e p) (hlength : p.length = 32) :
    readPredecessorLink rt e = .ok (h, some p) := by
  obtain ⟨update, a, hupdate, ha, rfl⟩ := hnames
  have hgenesis : a.operation ≠ .genesis := by
    intro hgenesis
    exact hnot ⟨update, hupdate, fun b hb => by
      obtain rfl := Option.some.inj (ha.symm.trans hb)
      exact hgenesis⟩
  rw [readPredecessorLink_of_decodes hupdate hhash, ha]
  simp [hgenesis, raiseIf, hlength, pure, Except.pure]

/-! ## The walk as a coroutine of lookups -/

/-- Coroutines whose requests are lookups of a state hash. -/
abbrev Lookups (α : Type) := Coro DhtState Bytes (fun _ => Option Bytes) PyError α

/-- The loop of `_read_remote_identity_predecessor_chain`, suspended at its lookups. -/
def lookupWalk (rt : Runtime) :
    (remaining : ℕ) → (reversedChain seenStateHashes : List Bytes) → (totalBytes : ℕ) →
    (envelope : Bytes) → Lookups (Option (List Bytes))
  | 0, _, _, _, _ => return none
  | remaining + 1, reversedChain, seenStateHashes, totalBytes, envelope => do
    match readPredecessorLink rt envelope with
    | .error _ => return none
    | .ok (stateHash, predecessorHash) =>
      if stateHash ∈ seenStateHashes then return none
      if maxRemoteIdentityHistoryBytes < totalBytes + envelope.length then return none
      match predecessorHash with
      | none => return some (envelope :: reversedChain)
      | some predecessorHash =>
        if remaining = 0 then return none
        match ← Coro.request (A := fun _ => Option Bytes) predecessorHash with
        | none => return none
        | some predecessor =>
          lookupWalk rt remaining (envelope :: reversedChain) (stateHash :: seenStateHashes)
            (totalBytes + envelope.length) predecessor

/-- **The method's loop is the walk**, with each lookup answered by
`read_remote_identity_envelope_by_hash`. -/
theorem handle_lookupWalk (remaining : ℕ) (chain seen : List Bytes) (total : ℕ)
    (envelope : Bytes) : (lookupWalk rt remaining chain seen total envelope).handle
        (readRemoteIdentityEnvelopeByHash rt d objectKeyHex) =
      walkPredecessors rt d objectKeyHex remaining chain seen total envelope := by
  induction remaining generalizing chain seen total envelope with
  | zero => rfl
  | succ remaining ih =>
    unfold lookupWalk walkPredecessors
    cases readPredecessorLink rt envelope with
    | error e => rfl
    | ok link =>
      obtain ⟨stateHash, predecessorHash⟩ := link
      dsimp only
      by_cases hseen : stateHash ∈ seen
      · simp only [if_pos hseen]
        rfl
      by_cases hbytes : maxRemoteIdentityHistoryBytes < total + envelope.length
      · simp only [if_neg hseen, if_pos hbytes]
        rfl
      simp only [if_neg hseen, if_neg hbytes]
      cases predecessorHash with
      | none => rfl
      | some predecessorHash =>
        by_cases hlast : remaining = 0
        · simp only [if_pos hlast]
          rfl
        simp only [if_neg hlast]
        rw [handle_bind, handle_request]
        refine congrArg
          (readRemoteIdentityEnvelopeByHash rt d objectKeyHex predecessorHash >>= ·) ?_
        funext predecessor
        cases predecessor with
        | none => rfl
        | some predecessor => exact ih _ _ _ _

theorem lookupWalk_found {remaining : ℕ} {chain seen : List Bytes} {total : ℕ}
    {envelope h : Bytes} (hlink : readPredecessorLink rt envelope = .ok (h, none)) (new : h ∉ seen)
    (fits : total + envelope.length ≤ maxRemoteIdentityHistoryBytes) :
    lookupWalk rt (remaining + 1) chain seen total envelope = pure (some (envelope :: chain)) := by
  unfold lookupWalk
  rw [hlink]
  dsimp only
  rw [if_neg new, if_neg (not_lt.2 fits)]

theorem lookupWalk_lookup {n : ℕ} {chain seen : List Bytes} {total : ℕ} {envelope h p : Bytes}
    (hlink : readPredecessorLink rt envelope = .ok (h, some p)) (new : h ∉ seen)
    (fits : total + envelope.length ≤ maxRemoteIdentityHistoryBytes) :
    lookupWalk rt (n + 1 + 1) chain seen total envelope = (do
      match ← Coro.request (A := fun _ => Option Bytes) p with
      | none => return none
      | some predecessor =>
        lookupWalk rt (n + 1) (envelope :: chain) (h :: seen) (total + envelope.length)
          predecessor) := by
  conv_lhs => unfold lookupWalk
  rw [hlink]
  dsimp only
  rw [if_neg new, if_neg (not_lt.2 fits), if_neg (Nat.succ_ne_zero n)]

/-- What the walk does next: it stops, or it looks up the predecessor of an envelope that fits. -/
inductive WalkStep (rt : Runtime) (remaining : ℕ) (chain seen : List Bytes) (total : ℕ)
    (envelope : Bytes) : Lookups (Option (List Bytes)) → Prop
  | refused : WalkStep rt remaining chain seen total envelope (pure none)
  | found {h : Bytes} (hlink : readPredecessorLink rt envelope = .ok (h, none)) (new : h ∉ seen)
      (fits : total + envelope.length ≤ maxRemoteIdentityHistoryBytes) :
      WalkStep rt remaining chain seen total envelope (pure (some (envelope :: chain)))
  | lookup {h p : Bytes} {n : ℕ} (more : remaining = n + 1)
      (hlink : readPredecessorLink rt envelope = .ok (h, some p)) (new : h ∉ seen)
      (fits : total + envelope.length ≤ maxRemoteIdentityHistoryBytes) :
      WalkStep rt remaining chain seen total envelope (do
        match ← Coro.request (A := fun _ => Option Bytes) p with
        | none => return none
        | some predecessor =>
          lookupWalk rt remaining (envelope :: chain) (h :: seen) (total + envelope.length)
            predecessor)

/-- **One step of the walk.** -/
theorem lookupWalk_step (rt : Runtime) (remaining : ℕ) (chain seen : List Bytes) (total : ℕ)
    (envelope : Bytes) : WalkStep rt remaining chain seen total envelope
      (lookupWalk rt (remaining + 1) chain seen total envelope) := by
  unfold lookupWalk
  cases hlink : readPredecessorLink rt envelope with
  | error e => exact .refused
  | ok link =>
    obtain ⟨h, predecessorHash⟩ := link
    dsimp only
    by_cases hseen : h ∈ seen
    · rw [if_pos hseen]
      exact .refused
    by_cases hbytes : maxRemoteIdentityHistoryBytes < total + envelope.length
    · rw [if_neg hseen, if_pos hbytes]
      exact .refused
    rw [if_neg hseen, if_neg hbytes]
    cases predecessorHash with
    | none => exact .found hlink hseen (not_lt.1 hbytes)
    | some p =>
      cases remaining with
      | zero => exact .refused
      | succ n => exact .lookup rfl hlink hseen (not_lt.1 hbytes)

/-- Each entry but the first takes one lookup. -/
theorem lookups_le {answers : Bytes → DhtState → Py (Option Bytes) → DhtState → Prop}
    {remaining : ℕ} {chain seen : List Bytes} {total : ℕ} {envelope : Bytes} {s t : DhtState}
    {l : List (Asked DhtState Bytes (fun _ => Option Bytes) PyError)}
    {x : Py (Option (List Bytes))}
    (h : Traced answers (lookupWalk rt (remaining + 1) chain seen total envelope) s l x t) :
    l.length ≤ remaining := by
  induction remaining generalizing chain seen total envelope s l with
  | zero =>
    generalize hp : lookupWalk rt (0 + 1) chain seen total envelope = p at h
    have hstep := hp ▸ lookupWalk_step rt 0 chain seen total envelope
    cases hstep with
    | refused => simp [h.pure_inv.1]
    | found => simp [h.pure_inv.1]
    | lookup more => cases more
  | succ remaining ih =>
    generalize hp : lookupWalk rt (remaining + 1 + 1) chain seen total envelope = p at h
    have hstep := hp ▸ lookupWalk_step rt (remaining + 1) chain seen total envelope
    cases hstep with
    | refused => simp [h.pure_inv.1]
    | found => simp [h.pure_inv.1]
    | lookup =>
      rcases h.bind_inv with ⟨found, u, l₁, l₂, hrequest, hrest, rfl⟩ | ⟨e, -, hrequest⟩
      · obtain ⟨rfl, -⟩ := hrequest.request_inv
        cases found with
        | none => simp [hrest.pure_inv.1]
        | some predecessor =>
          have := ih hrest
          simp only [List.length_append, List.length_singleton]
          omega
      · simp [hrequest.request_inv.1]

/-! ## What the walk returns -/

/-- The state of the walk: what it has is linked up to the current envelope, and its hashes, its
length and its bytes are kept. -/
structure Walked (rt : Runtime) (current : Bytes) (remaining : ℕ) (chain seen : List Bytes)
    (total : ℕ) (envelope : Bytes) : Prop where
  last : (envelope :: chain).getLast? = some current
  linked : (envelope :: chain).IsChain fun a b => ∃ h, HasStateHash rt a h ∧ Names rt b h
  only : ∀ e ∈ chain, ¬ StartsChain rt e
  hashes : ∀ h, h ∈ seen ↔ ∃ e ∈ chain, HasStateHash rt e h
  distinct : chain.Pairwise fun a b => ∀ h, HasStateHash rt a h → ¬ HasStateHash rt b h
  bytes : total = (chain.map List.length).sum
  entries : chain.length + remaining = 256

namespace Walked

variable {remaining : ℕ} {chain seen : List Bytes} {total : ℕ} {envelope h : Bytes}

theorem start : Walked rt current 256 [] [] 0 current where
  last := rfl
  linked := .singleton _
  only := by simp
  hashes := by simp
  distinct := .nil
  bytes := rfl
  entries := rfl

/-- A hash that was not seen is that of no entry. -/
theorem distinct_cons (hw : Walked rt current remaining chain seen total envelope)
    (hhash : HasStateHash rt envelope h) (new : h ∉ seen) :
    (envelope :: chain).Pairwise fun a b => ∀ h, HasStateHash rt a h → ¬ HasStateHash rt b h := by
  refine List.pairwise_cons.2 ⟨fun b hb h' henvelope hb' => ?_, hw.distinct⟩
  obtain rfl := hhash.unique henvelope
  exact new ((hw.hashes h).2 ⟨b, hb, hb'⟩)

/-- An envelope that names no predecessor ends the walk with a chain. -/
theorem found (hw : Walked rt current (remaining + 1) chain seen total envelope)
    (hlink : readPredecessorLink rt envelope = .ok (h, none)) (new : h ∉ seen)
    (fits : total + envelope.length ≤ maxRemoteIdentityHistoryBytes) :
    PredecessorChain rt current (envelope :: chain) := by
  obtain ⟨hhash, hstarts⟩ := readPredecessorLink_none.1 hlink
  have hentries := hw.entries
  refine ⟨⟨hw.last, ?_, hw.linked, hw.distinct_cons hhash new, ?_, ?_⟩, hw.only⟩
  · rintro e ⟨⟩
    exact hstarts
  · simp only [List.length_cons]
    omega
  · have hbytes := hw.bytes
    simp only [List.map_cons, List.sum_cons, maxRemoteIdentityHistoryBytes] at fits ⊢
    omega

/-- One that names the predecessor that was found is added to what the walk has. -/
theorem step {p predecessor : Bytes}
    (hw : Walked rt current (remaining + 1) chain seen total envelope)
    (hlink : readPredecessorLink rt envelope = .ok (h, some p)) (new : h ∉ seen)
    (hpredecessor : HasStateHash rt predecessor p) :
    Walked rt current remaining (envelope :: chain) (h :: seen) (total + envelope.length)
      predecessor := by
  obtain ⟨hhash, hnot, hnames⟩ := readPredecessorLink_some hlink
  have hentries := hw.entries
  constructor
  · rw [List.getLast?_cons_cons]
    exact hw.last
  · exact .cons_cons ⟨p, hpredecessor, hnames⟩ hw.linked
  · exact List.forall_mem_cons.2 ⟨hnot, hw.only⟩
  · intro h'
    simp only [List.mem_cons, hw.hashes, exists_eq_or_imp]
    exact or_congr_left ⟨fun heq => heq ▸ hhash, fun hh' => hh'.unique hhash⟩
  · exact hw.distinct_cons hhash new
  · rw [hw.bytes, List.map_cons, List.sum_cons, Nat.add_comm]
  · simp only [List.length_cons]
    omega

end Walked

/-- **What the walk returns is a chain of predecessors**, if lookups return envelopes of the state
hash they were asked for. -/
theorem lookupWalk_sound {answers : Bytes → DhtState → Py (Option Bytes) → DhtState → Prop}
    (hlookup : ∀ h s e t, answers h s (.ok (some e)) t → HasStateHash rt e h)
    {remaining : ℕ} {chain seen : List Bytes} {total : ℕ} {envelope : Bytes} {s t : DhtState}
    {l : List (Asked DhtState Bytes (fun _ => Option Bytes) PyError)} {result : List Bytes}
    (hw : Walked rt current remaining chain seen total envelope)
    (h : Traced answers (lookupWalk rt remaining chain seen total envelope) s l
      (.ok (some result)) t) :
    PredecessorChain rt current result := by
  induction remaining generalizing chain seen total envelope s l with
  | zero =>
    obtain ⟨-, hx, -⟩ := h.pure_inv
    cases hx
  | succ remaining ih =>
    generalize hp : lookupWalk rt (remaining + 1) chain seen total envelope = p at h
    have hstep := hp ▸ lookupWalk_step rt remaining chain seen total envelope
    cases hstep with
    | refused =>
      obtain ⟨-, hx, -⟩ := h.pure_inv
      cases hx
    | found hlink new fits =>
      obtain ⟨-, hx, -⟩ := h.pure_inv
      obtain rfl := Option.some.inj (Except.ok.inj hx)
      exact hw.found hlink new fits
    | lookup _ hlink new =>
      rcases h.bind_inv with ⟨found, u, l₁, l₂, hrequest, hrest, rfl⟩ | ⟨e, hx, -⟩
      · obtain ⟨-, hanswer⟩ := hrequest.request_inv
        cases found with
        | none =>
          obtain ⟨-, hx, -⟩ := hrest.pure_inv
          cases hx
        | some predecessor => exact ih (hw.step hlink new (hlookup _ _ _ _ hanswer)) hrest
      · cases hx

/-! ## Chains that are found -/

section Complete

variable {answers : Bytes → DhtState → Py (Option Bytes) → DhtState → Prop} {I : DhtState → Prop}
  {before chain seen : List Bytes} {remaining total : ℕ} {envelope : Bytes}

/-- In a chain the entries after an envelope have other hashes. -/
theorem LinkedChain.new_of_walked (hchain : LinkedChain rt current (before ++ envelope :: chain))
    (hw : Walked rt current remaining chain seen total envelope) {h : Bytes}
    (hhash : HasStateHash rt envelope h) : h ∉ seen := by
  intro hmem
  obtain ⟨e, he, heh⟩ := (hw.hashes h).1 hmem
  have hdistinct := (List.pairwise_append.1 hchain.distinct).2.1
  exact (List.pairwise_cons.1 hdistinct).1 e he h hhash heh

/-- The bytes of an envelope of a chain fit. -/
theorem LinkedChain.fits_of_walked (hchain : LinkedChain rt current (before ++ envelope :: chain))
    (hw : Walked rt current remaining chain seen total envelope) :
    total + envelope.length ≤ maxRemoteIdentityHistoryBytes := by
  have hbytes := hchain.bytes
  have htotal := hw.bytes
  simp only [List.map_append, List.map_cons, List.sum_append, List.sum_cons] at hbytes
  simp only [maxRemoteIdentityHistoryBytes]
  omega

/-- **A chain that lookups give is returned.** The induction is on the entries that are still to be
looked up, from the last of them. -/
theorem lookupWalk_complete
    {l : List (Asked DhtState Bytes (fun _ => Option Bytes) PyError)}
    {x : Py (Option (List Bytes))} {s t : DhtState}
    (hchain : PredecessorChain rt current (before ++ envelope :: chain))
    (hw : Walked rt current remaining chain seen total envelope)
    (hholds : ∀ a ∈ before, ∀ h, HasStateHash rt a h → ∀ s r t, I s → answers h s r t →
      r = .ok (some a) ∧ I t) (hs : I s)
    (h : Traced answers (lookupWalk rt remaining chain seen total envelope) s l x t) :
    x = .ok (some (before ++ envelope :: chain)) := by
  induction before using List.reverseRecOn generalizing chain seen remaining total envelope s l with
  | nil =>
    have hstarts : StartsChain rt envelope := hchain.starts envelope rfl
    obtain ⟨update, ⟨u, hu, -⟩, -⟩ := id hstarts
    have hhash : HasStateHash rt envelope (rt.sha256 u) := ⟨u, hu, rfl⟩
    have hentries := hchain.entries
    have hwalked := hw.entries
    obtain ⟨n, rfl⟩ : ∃ n, remaining = n + 1 := by
      simp only [List.nil_append, List.length_cons] at hentries
      exact ⟨remaining - 1, by omega⟩
    rw [lookupWalk_found (readPredecessorLink_none.2 ⟨hhash, hstarts⟩)
      (hchain.new_of_walked hw hhash) (hchain.fits_of_walked hw)] at h
    exact h.pure_inv.2.1
  | append_singleton before a ih =>
    have hsplit : before ++ [a] ++ envelope :: chain = before ++ a :: envelope :: chain := by simp
    have hnot : ¬ StartsChain rt envelope := by
      refine hchain.only envelope ?_
      cases before <;> simp
    obtain ⟨p, hp, hnames⟩ : ∃ p, HasStateHash rt a p ∧ Names rt envelope p := by
      have hlinked := hchain.linked
      rw [hsplit] at hlinked
      exact (List.isChain_cons_cons.1 hlinked.right_of_append).1
    obtain ⟨_, _, ⟨u, hu, -⟩, -⟩ := id hnames
    have hhash : HasStateHash rt envelope (rt.sha256 u) := ⟨u, hu, rfl⟩
    have hlength : p.length = 32 := by
      obtain ⟨v, -, rfl⟩ := hp
      exact rt.sha256_length v
    have hentries := hchain.entries
    have hwalked := hw.entries
    obtain ⟨n, rfl⟩ : ∃ n, remaining = n + 1 + 1 := by
      simp only [List.length_append, List.length_cons] at hentries
      exact ⟨remaining - 2, by omega⟩
    have hlink := readPredecessorLink_of_names hhash hnot hnames hlength
    have new := hchain.new_of_walked hw hhash
    rw [lookupWalk_lookup hlink new (hchain.fits_of_walked hw)] at h
    have hanswer {r : Py (Option Bytes)} {t : DhtState} (hr : answers p s r t) :
        r = .ok (some a) ∧ I t := hholds a (by simp) p hp s r t hs hr
    rcases h.bind_inv with ⟨found, v, _, l₂, hrequest, hrest, -⟩ | ⟨e, -, hrequest⟩
    · obtain ⟨heq, hv⟩ := hanswer hrequest.request_inv.2
      obtain rfl := Except.ok.inj heq
      rw [hsplit] at hchain ⊢
      refine ih hchain (hw.step hlink new hp) (fun b hb => hholds b ?_) hv hrest
      exact List.mem_append_left _ hb
    · cases (hanswer hrequest.request_inv.2).1

end Complete

/-! ## What peers hold -/

variable {rely : (q : Request) → DhtState → Py q.Answer → DhtState → Prop}

/-- Of the configured peers, the first that answers the history key of a state hash with an envelope
of that hash answers with the given one. -/
def PeersHold (rt : Runtime) (d : DhtInstance)
    (rely : (q : Request) → DhtState → Py q.Answer → DhtState → Prop) (objectKeyHex : Text)
    (peers : List Text) (envelope stateHash : Bytes) : Prop :=
  ∃ kadKey earlier peer later, identityHistoryKadKey objectKeyHex stateHash = .ok kadKey ∧
    peers = earlier ++ peer :: later ∧ (d.peerId peer).all (· = d.localPeerId) = false ∧
    (∀ s r t, s.surroundings.bootstrapPeers = peers → rely (.peerHistory peer kadKey) s r t →
      r = .ok (some envelope) ∧ t.surroundings.bootstrapPeers = peers) ∧
    ∀ other ∈ earlier, ∀ s r t, s.surroundings.bootstrapPeers = peers →
      rely (.peerHistory other kadKey) s r t → t.surroundings.bootstrapPeers = peers ∧
        (∀ e, r = .error e → e.cls.isException = true) ∧
        ∀ e, r = .ok (some e) → ¬ HasStateHash rt e stateHash

/-- A default for what raises an exception. -/
theorem orOnException_inv {α : Type} {p : Dht α} {a : α} {s t : DhtState}
    {l : List (Asked DhtState Request Request.Answer PyError)} {x : Py α}
    (h : Traced rely (orOnException p (pure a)) s l x t) :
    ∃ y, Traced rely p s l y t ∧ ((x = y ∧ ∀ e, y = .error e → e.cls.isException = false) ∨
      x = .ok a ∧ ∃ e, y = .error e) := by
  rcases h.orHandle_inv with ⟨b, rfl, hp⟩ | ⟨e, u, l₁, l₂, hp, hhandler, rfl⟩
  · exact ⟨_, hp, .inl ⟨rfl, by simp⟩⟩
  · by_cases hexception : e.cls.isException = true
    · rw [if_pos hexception] at hhandler
      obtain ⟨rfl, rfl, rfl⟩ := hhandler.pure_inv
      exact ⟨_, by rwa [List.append_nil], .inr ⟨rfl, e, rfl⟩⟩
    · rw [if_neg hexception] at hhandler
      cases hhandler
      refine ⟨_, by rwa [List.append_nil], .inl ⟨rfl, ?_⟩⟩
      rintro e' ⟨⟩
      exact Bool.eq_false_iff.2 hexception

/-- A remote peer that answers with the envelope of the hash ends the loop over the peers. -/
theorem readHistoryFromPeers_hit {kadKey envelope stateHash : Bytes} {peers later : List Text}
    {peer : Text} (hhash : HasStateHash rt envelope stateHash)
    (hremote : (d.peerId peer).all (· = d.localPeerId) = false) {s t : DhtState}
    (hpeer : ∀ r t, rely (.peerHistory peer kadKey) s r t →
      r = .ok (some envelope) ∧ t.surroundings.bootstrapPeers = peers)
    {l : List (Asked DhtState Request Request.Answer PyError)} {x : Py (Option Bytes)}
    (h : Traced rely (readHistoryFromPeers rt d kadKey stateHash (peer :: later)) s l x t) :
    x = .ok (some envelope) ∧ t.surroundings.bootstrapPeers = peers := by
  obtain ⟨u, hu, hstate⟩ := hhash
  unfold readHistoryFromPeers at h
  rw [if_neg (by simp [hremote])] at h
  rcases h.bind_inv with ⟨found, v, _, _, hrequest, hrest, -⟩ | ⟨e, -, hrequest⟩
  · obtain ⟨y, hrequest, hfound⟩ := orOnException_inv hrequest
    obtain ⟨rfl, hv⟩ := hpeer _ _ hrequest.request_inv.2
    obtain rfl : found = some envelope := by
      rcases hfound with ⟨hfound, -⟩ | ⟨-, e, he⟩
      · exact Except.ok.inj hfound
      · cases he
    simp only [hu, hstate, if_true] at hrest
    obtain ⟨-, rfl, rfl⟩ := hrest.pure_inv
    exact ⟨rfl, hv⟩
  · obtain ⟨y, hrequest, hfound⟩ := orOnException_inv hrequest
    obtain ⟨rfl, -⟩ := hpeer _ _ hrequest.request_inv.2
    rcases hfound with ⟨hfound, -⟩ | ⟨hfound, -⟩ <;> cases hfound

/-- A peer that fails or answers with another envelope is passed over. -/
theorem readHistoryFromPeers_miss {kadKey stateHash : Bytes} {peers rest : List Text}
    {other : Text} {s t : DhtState} (hs : s.surroundings.bootstrapPeers = peers)
    (hother : ∀ r t, rely (.peerHistory other kadKey) s r t →
      t.surroundings.bootstrapPeers = peers ∧ (∀ e, r = .error e → e.cls.isException = true) ∧
        ∀ e, r = .ok (some e) → ¬ HasStateHash rt e stateHash)
    {l : List (Asked DhtState Request Request.Answer PyError)} {x : Py (Option Bytes)}
    (h : Traced rely (readHistoryFromPeers rt d kadKey stateHash (other :: rest)) s l x t) :
    ∃ u l', u.surroundings.bootstrapPeers = peers ∧
      Traced rely (readHistoryFromPeers rt d kadKey stateHash rest) u l' x t := by
  unfold readHistoryFromPeers at h
  by_cases hlocal : (d.peerId other).all (· = d.localPeerId) = true
  · rw [if_pos hlocal] at h
    exact ⟨_, _, hs, h⟩
  rw [if_neg hlocal] at h
  rcases h.bind_inv with ⟨found, v, _, l', hrequest, hnext, -⟩ | ⟨e, -, hrequest⟩
  · obtain ⟨y, hrequest, hfound⟩ := orOnException_inv hrequest
    obtain ⟨hv, -, hanswer⟩ := hother _ _ hrequest.request_inv.2
    refine ⟨v, l', hv, ?_⟩
    cases found with
    | none => exact hnext
    | some e =>
      obtain rfl : y = .ok (some e) := by
        rcases hfound with ⟨hfound, -⟩ | ⟨hfound, -⟩
        · exact hfound.symm
        · cases hfound
      cases he : envelopeSignedUpdateBytes rt e with
      | error err =>
        simp only [he] at hnext
        exact hnext
      | ok u =>
        simp only [he] at hnext
        rw [if_neg fun hstate => hanswer e rfl ⟨u, he, hstate⟩] at hnext
        exact hnext
  · obtain ⟨y, hrequest, hfound⟩ := orOnException_inv hrequest
    obtain ⟨-, hexception, -⟩ := hother _ _ hrequest.request_inv.2
    rcases hfound with ⟨rfl, hnot⟩ | ⟨hfound, -⟩
    · cases (hexception e rfl).symm.trans (hnot e rfl)
    · cases hfound

/-- **What the peers hold is looked up.** The induction is on the peers that are asked before. -/
theorem readHistoryFromPeers_of_held {kadKey envelope stateHash : Bytes}
    {peers earlier later : List Text} {peer : Text} (hhash : HasStateHash rt envelope stateHash)
    (hremote : (d.peerId peer).all (· = d.localPeerId) = false)
    (hpeer : ∀ s r t, s.surroundings.bootstrapPeers = peers →
      rely (.peerHistory peer kadKey) s r t →
      r = .ok (some envelope) ∧ t.surroundings.bootstrapPeers = peers)
    (hearlier : ∀ other ∈ earlier, ∀ s r t, s.surroundings.bootstrapPeers = peers →
      rely (.peerHistory other kadKey) s r t → t.surroundings.bootstrapPeers = peers ∧
        (∀ e, r = .error e → e.cls.isException = true) ∧
        ∀ e, r = .ok (some e) → ¬ HasStateHash rt e stateHash)
    {s t : DhtState} {l : List (Asked DhtState Request Request.Answer PyError)}
    {x : Py (Option Bytes)} (hs : s.surroundings.bootstrapPeers = peers)
    (h : Traced rely (readHistoryFromPeers rt d kadKey stateHash (earlier ++ peer :: later)) s l
      x t) :
    x = .ok (some envelope) ∧ t.surroundings.bootstrapPeers = peers := by
  induction earlier generalizing s l with
  | nil => exact readHistoryFromPeers_hit hhash hremote (fun r t => hpeer s r t hs) h
  | cons other earlier ih =>
    obtain ⟨u, l', hu, hrest⟩ := readHistoryFromPeers_miss hs
      (fun r t => hearlier other List.mem_cons_self s r t hs) h
    exact ih (fun other hother => hearlier other (List.mem_cons_of_mem _ hother)) hu hrest

/-- While the configured peers stay, a lookup returns what they hold. -/
theorem PeersHold.lookup {peers : List Text} {envelope stateHash : Bytes}
    (h : PeersHold rt d rely objectKeyHex peers envelope stateHash)
    (hhash : HasStateHash rt envelope stateHash) {s t : DhtState} {x : Py (Option Bytes)}
    (hs : s.surroundings.bootstrapPeers = peers)
    (hrun : Runs rely (readRemoteIdentityEnvelopeByHash rt d objectKeyHex stateHash) s x t) :
    x = .ok (some envelope) ∧ t.surroundings.bootstrapPeers = peers := by
  obtain ⟨kadKey, earlier, peer, later, hkey, hpeers, hremote, hpeer, hearlier⟩ := h
  obtain ⟨l, hl⟩ := hrun.traced
  unfold readRemoteIdentityEnvelopeByHash at hl
  rcases hl.bind_inv with ⟨configured, u, _, _, hreads, hnext, -⟩ | ⟨e, -, hreads⟩
  · obtain ⟨-, hconfigured, hu⟩ := hreads.transact_inv
    obtain rfl : configured = peers := (Except.ok.inj hconfigured).trans hs
    subst hu
    rw [hpeers, if_neg (by simp)] at hnext
    rcases hnext.bind_inv with ⟨key, v, _, _, hlift, hread, -⟩ | ⟨e, -, hlift⟩
    · obtain ⟨-, hkey', rfl⟩ := hlift.lift_inv
      obtain rfl := Except.ok.inj (hkey'.trans hkey)
      exact readHistoryFromPeers_of_held hhash hremote hpeer hearlier hs hread
    · cases hlift.lift_inv.2.1.trans hkey
  · cases hreads.transact_inv.2.1

/-! ## The method -/

/-- The method is the walk, answered by the lookups, with its handler of time-outs. -/
theorem readRemoteIdentityPredecessorChain_eq (rt : Runtime) (d : DhtInstance)
    (objectKeyHex : Text) (current : Bytes) :
    readRemoteIdentityPredecessorChain rt d objectKeyHex current =
      ((lookupWalk rt 256 [] [] 0 current).handle
        (readRemoteIdentityEnvelopeByHash rt d objectKeyHex)).orHandle
        fun e => if e.cls = .timedOut then return none else .raise e := by
  rw [handle_lookupWalk]
  rfl

/-- A run of the method is one of the walk: its result, or the failure that it handles. -/
theorem lookupWalk_of_runs {current : Bytes} {s t : DhtState} {x : Py (Option (List Bytes))}
    (hrun : Runs rely (readRemoteIdentityPredecessorChain rt d objectKeyHex current) s x t) :
    (∃ a l, x = .ok a ∧ Traced (Handled rely (readRemoteIdentityEnvelopeByHash rt d objectKeyHex))
      (lookupWalk rt 256 [] [] 0 current) s l (.ok a) t) ∨
    (x = .ok none ∨ ∃ e, x = .error e) ∧ ∃ e l u,
      Traced (Handled rely (readRemoteIdentityEnvelopeByHash rt d objectKeyHex))
        (lookupWalk rt 256 [] [] 0 current) s l (.error e) u := by
  rw [readRemoteIdentityPredecessorChain_eq] at hrun
  obtain ⟨l, hl⟩ := hrun.traced
  rcases hl.orHandle_inv with ⟨a, rfl, hwalk⟩ | ⟨e, u, _, _, hwalk, hhandler, -⟩
  · obtain ⟨l, hwalk⟩ := (runs_handle hwalk.runs).traced
    exact .inl ⟨a, l, rfl, hwalk⟩
  · obtain ⟨l, hwalk⟩ := (runs_handle hwalk.runs).traced
    refine .inr ⟨?_, e, l, u, hwalk⟩
    by_cases htimeout : e.cls = .timedOut
    · rw [if_pos htimeout] at hhandler
      exact .inl hhandler.pure_inv.2.1
    · rw [if_neg htimeout] at hhandler
      cases hhandler
      exact .inr ⟨e, rfl⟩

/-- **The walk along predecessor hashes.** The method is a walk of at most 255 lookups, each
answered by `read_remote_identity_envelope_by_hash`; what it returns is a chain of predecessors of
the current envelope; and a chain of predecessors that the configured peers hold is returned. -/
theorem readRemoteIdentityPredecessorChain_walks (rt : Runtime) (d : DhtInstance)
    (objectKeyHex : Text) (current : Bytes)
    (rely : (q : Request) → DhtState → Py q.Answer → DhtState → Prop) :
    (readRemoteIdentityPredecessorChain rt d objectKeyHex current =
        ((lookupWalk rt 256 [] [] 0 current).handle
          (readRemoteIdentityEnvelopeByHash rt d objectKeyHex)).orHandle
          fun e => if e.cls = .timedOut then return none else .raise e) ∧
      (∀ answers s l x t, Traced answers (lookupWalk rt 256 [] [] 0 current) s l x t →
        l.length ≤ 255) ∧
      (∀ s t chain, Runs rely (readRemoteIdentityPredecessorChain rt d objectKeyHex current) s
        (.ok (some chain)) t → PredecessorChain rt current chain) ∧
      ∀ peers chain, PredecessorChain rt current chain →
        (∀ e ∈ chain.dropLast, ∀ h, HasStateHash rt e h →
          PeersHold rt d rely objectKeyHex peers e h) →
        ∀ s x t, s.surroundings.bootstrapPeers = peers →
          Runs rely (readRemoteIdentityPredecessorChain rt d objectKeyHex current) s x t →
          x = .ok (some chain) := by
  refine ⟨readRemoteIdentityPredecessorChain_eq rt d objectKeyHex current,
    fun answers s l x t h => lookups_le h, fun s t chain hrun => ?_,
    fun peers chain hchain hheld s x t hs hrun => ?_⟩
  · rcases lookupWalk_of_runs hrun with ⟨a, l, ha, hwalk⟩ | ⟨hx | ⟨e, hx⟩, -⟩
    · obtain rfl := Except.ok.inj ha
      refine lookupWalk_sound (fun h s e t hanswer => ?_) Walked.start hwalk
      exact (readRemoteIdentityEnvelopeByHash_quiet objectKeyHex h).of_runs hanswer e rfl
    · cases hx
    · cases hx
  · obtain ⟨before, rfl⟩ := List.getLast?_eq_some_iff.1 hchain.last
    rw [List.dropLast_concat] at hheld
    have hlookup (a : Bytes) (ha : a ∈ before) (h : Bytes) (hh : HasStateHash rt a h)
        (s : DhtState) (r : Py (Option Bytes)) (t : DhtState)
        (hs : s.surroundings.bootstrapPeers = peers)
        (hanswer : Handled rely (readRemoteIdentityEnvelopeByHash rt d objectKeyHex) h s r t) :
        r = .ok (some a) ∧ t.surroundings.bootstrapPeers = peers :=
      (hheld a ha h hh).lookup hh hs hanswer
    rcases lookupWalk_of_runs hrun with ⟨a, l, rfl, hwalk⟩ | ⟨-, e, l, u, hwalk⟩
    · exact lookupWalk_complete hchain Walked.start hlookup hs hwalk
    · cases lookupWalk_complete hchain Walked.start hlookup hs hwalk

namespace Sample

/-- An instance that reaches its configured peers. -/
def reader : DhtInstance := { node with peerId := fun _ => some [1] }

def readerState : DhtState :=
  { stateOver .empty with surroundings :=
      { valueStore := fun _ => none, clock := 0, serverMode := false,
        bootstrapPeers := [text "peer"] } }

/-- The state hash of an envelope that parses. -/
def stateHashOf (e : Bytes) : Bytes :=
  runtime.sha256 ((envelopeSignedUpdateBytes runtime e).toOption.getD [])

/-- The answers of peers that hold the given envelopes of the Identity. -/
def peersHolding (held : List Bytes) : (q : Request) → DhtState → Py q.Answer × DhtState
  | .peerHistory _ kadKey, s =>
    (.ok (held.find? fun e => historyKeyPrefix ++ identityKey ++ stateHashOf e == kadKey), s)
  | .acceptedLock, s | .putValue _ _ _, s => (.ok (), s)
  | .getValue _ _, s | .readerEnvelope _, s | .peerEnvelope _ _, s => (.ok none, s)

/-- A genesis that has the hash of another SignedUpdate in its authorization map. -/
def namingGenesis : Bytes :=
  multisignatureEnvelope (identityFields 'a') [] 2
    (identityAuthorization .genesis 1 ['a', 'b', 'c'] (stateHashOf legacyIdentity)) ⟨0, []⟩

def afterGenesis : Bytes :=
  multisignatureEnvelope (identityFields 'a') [] 3
    (identityAuthorization .ordinaryUpdate 1 ['a', 'b', 'c'] (stateHashOf namingGenesis)) ⟨0, []⟩

/-- The SignedUpdate of a legacy envelope, which has no authorization map, in an envelope with
proofs. -/
def unauthorizedEnvelope : Bytes :=
  cbor (.dict [(.int 1, natValue 1),
    (.int 2, .atom (.bytes ((envelopeSignedUpdateBytes runtime legacyIdentity).toOption.getD []))),
    (.int 3, .list [])])

theorem stateHashOf_eq {e h : Bytes} (hh : HasStateHash runtime e h) : stateHashOf e = h := by
  obtain ⟨u, hu, rfl⟩ := hh
  rw [stateHashOf, hu]
  rfl

theorem hasStateHash_stateHashOf {e : Bytes}
    (h : (envelopeSignedUpdateBytes runtime e).isOk = true) :
    HasStateHash runtime e (stateHashOf e) := by
  obtain ⟨u, hu⟩ : ∃ u, envelopeSignedUpdateBytes runtime e = .ok u := ⟨_, eq_ok_valueOf h⟩
  refine ⟨u, hu, ?_⟩
  rw [stateHashOf, hu]
  rfl

/-- What the peers of the instance answer they hold. -/
theorem peersHold_peersHolding {held : List Bytes} {e h : Bytes} (hh : HasStateHash runtime e h)
    (hfind : held.find? (fun x => historyKeyPrefix ++ identityKey ++ stateHashOf x ==
      historyKeyPrefix ++ identityKey ++ stateHashOf e) = some e) :
    PeersHold runtime reader (fun q s r t => (r, t) = peersHolding held q s) (toHex identityKey)
      [text "peer"] e h := by
  have hkey : identityHistoryKadKey (toHex identityKey) h =
      .ok (historyKeyPrefix ++ identityKey ++ h) := by
    obtain ⟨u, -, rfl⟩ := hh
    have hidentity : identityKey.length = 32 := Sha256.length_sha256 _
    simp [identityHistoryKadKey, fromHex_toHex, rewrap, raiseIf, hidentity, runtime.sha256_length,
      pure, Except.pure]
  refine ⟨_, [], text "peer", [], hkey, rfl, by decide +kernel, fun s r t hs hanswer => ?_, by simp⟩
  obtain ⟨rfl, rfl⟩ := Prod.mk.inj hanswer
  rw [stateHashOf_eq hh] at hfind
  exact ⟨congrArg Except.ok hfind, hs⟩

end Sample

/-- The upgrade of an Identity, whose legacy envelope a configured peer holds. -/
theorem upgrade_walks :
    PredecessorChain Sample.runtime Sample.upgrade [Sample.legacyIdentity, Sample.upgrade] ∧
      (run (Sample.peersHolding [Sample.legacyIdentity]) (readRemoteIdentityPredecessorChain
        Sample.runtime Sample.reader (toHex Sample.identityKey) Sample.upgrade)
        Sample.readerState).1 = .ok (some [Sample.legacyIdentity, Sample.upgrade]) := by
  obtain ⟨hreturned, hfind⟩ : (run (Sample.peersHolding [Sample.legacyIdentity])
      (readRemoteIdentityPredecessorChain Sample.runtime Sample.reader (toHex Sample.identityKey)
        Sample.upgrade) Sample.readerState).1 =
        .ok (some [Sample.legacyIdentity, Sample.upgrade]) ∧
      [Sample.legacyIdentity].find? (fun x => historyKeyPrefix ++ Sample.identityKey ++
        Sample.stateHashOf x == historyKeyPrefix ++ Sample.identityKey ++
          Sample.stateHashOf Sample.legacyIdentity) = some Sample.legacyIdentity := by
    decide +kernel
  have hruns := runs_run (fun q s r t => (r, t) = Sample.peersHolding [Sample.legacyIdentity] q s)
    (Sample.peersHolding [Sample.legacyIdentity]) (fun _ _ => rfl)
    (readRemoteIdentityPredecessorChain Sample.runtime Sample.reader (toHex Sample.identityKey)
      Sample.upgrade) Sample.readerState
  obtain ⟨-, -, hsound, hcomplete⟩ := readRemoteIdentityPredecessorChain_walks Sample.runtime
    Sample.reader (toHex Sample.identityKey) Sample.upgrade
    (fun q s r t => (r, t) = Sample.peersHolding [Sample.legacyIdentity] q s)
  have hchain : PredecessorChain Sample.runtime Sample.upgrade
      [Sample.legacyIdentity, Sample.upgrade] := by
    rw [hreturned] at hruns
    exact hsound Sample.readerState _ _ hruns
  refine ⟨hchain, hcomplete _ _ hchain (fun e he h hh => ?_) _ _ _ rfl hruns⟩
  obtain rfl : e = Sample.legacyIdentity := by simpa using he
  exact Sample.peersHold_peersHolding hh hfind

theorem names_iff {e h : Bytes} : Names rt e h ↔
    (fun update : SignedUpdate => update.authorization.map (·.predecessorStateHash)) <$>
      (envelopeSignedUpdateBytes rt e >>= decodeCanonicalSignedUpdate rt) = .ok (some h) := by
  simp only [Names, DecodesTo, map_eq_ok, bind_eq_ok, Option.map_eq_some_iff]
  constructor
  · rintro ⟨update, a, hupdate, ha, rfl⟩
    exact ⟨update, hupdate, a, ha, rfl⟩
  · rintro ⟨update, hupdate, a, ha, rfl⟩
    exact ⟨update, a, hupdate, ha, rfl⟩

/-- **A genesis ends the walk**, also one that has the hash of an envelope in its authorization map:
of two linked chains that the peers hold, the shorter is returned. -/
theorem namingGenesis_endsWalk :
    ¬ ∀ chain, LinkedChain Sample.runtime Sample.afterGenesis chain →
      (∀ e ∈ chain.dropLast, ∀ h, HasStateHash Sample.runtime e h →
        PeersHold Sample.runtime Sample.reader
          (fun q s r t => (r, t) = Sample.peersHolding [Sample.legacyIdentity, Sample.namingGenesis]
            q s) (toHex Sample.identityKey) [Sample.text "peer"] e h) →
      ∀ s x t, s.surroundings.bootstrapPeers = [Sample.text "peer"] →
        Runs (fun q s r t =>
            (r, t) = Sample.peersHolding [Sample.legacyIdentity, Sample.namingGenesis] q s)
          (readRemoteIdentityPredecessorChain Sample.runtime Sample.reader
            (toHex Sample.identityKey) Sample.afterGenesis) s x t →
        x = .ok (some chain) := by
  intro hreturned
  obtain ⟨hlegacy, hgenesis, hdistinct⟩ :
      (envelopeSignedUpdateBytes Sample.runtime Sample.legacyIdentity).isOk = true ∧
      (envelopeSignedUpdateBytes Sample.runtime Sample.namingGenesis).isOk = true ∧
      Sample.stateHashOf Sample.legacyIdentity ≠ Sample.stateHashOf Sample.namingGenesis ∧
      Sample.stateHashOf Sample.legacyIdentity ≠ Sample.stateHashOf Sample.afterGenesis ∧
      Sample.stateHashOf Sample.namingGenesis ≠ Sample.stateHashOf Sample.afterGenesis := by
    decide +kernel
  obtain ⟨hlink, hnamed, hnamed', hbytes⟩ :
      readPredecessorLink Sample.runtime Sample.legacyIdentity =
        .ok (Sample.stateHashOf Sample.legacyIdentity, none) ∧
      (fun update : SignedUpdate => update.authorization.map (·.predecessorStateHash)) <$>
        (envelopeSignedUpdateBytes Sample.runtime Sample.namingGenesis >>=
          decodeCanonicalSignedUpdate Sample.runtime) =
        .ok (some (Sample.stateHashOf Sample.legacyIdentity)) ∧
      (fun update : SignedUpdate => update.authorization.map (·.predecessorStateHash)) <$>
        (envelopeSignedUpdateBytes Sample.runtime Sample.afterGenesis >>=
          decodeCanonicalSignedUpdate Sample.runtime) =
        .ok (some (Sample.stateHashOf Sample.namingGenesis)) ∧
      ([Sample.legacyIdentity, Sample.namingGenesis, Sample.afterGenesis].map List.length).sum ≤
        4 * 1024 * 1024 := by
    decide +kernel
  have hne {a b : Bytes} (hne : Sample.stateHashOf a ≠ Sample.stateHashOf b) (h : Bytes)
      (ha : HasStateHash Sample.runtime a h) : ¬ HasStateHash Sample.runtime b h := fun hb =>
    hne ((Sample.stateHashOf_eq ha).trans (Sample.stateHashOf_eq hb).symm)
  have hchain : LinkedChain Sample.runtime Sample.afterGenesis
      [Sample.legacyIdentity, Sample.namingGenesis, Sample.afterGenesis] := by
    refine ⟨rfl, ?_, ?_, ?_, by simp, hbytes⟩
    · rintro e ⟨⟩
      exact (readPredecessorLink_none.1 hlink).2
    · refine .cons_cons ⟨_, Sample.hasStateHash_stateHashOf hlegacy, names_iff.2 hnamed⟩
        (.cons_cons ?_ (.singleton _))
      exact ⟨_, Sample.hasStateHash_stateHashOf hgenesis, names_iff.2 hnamed'⟩
    · simp only [List.pairwise_cons, List.mem_cons, List.not_mem_nil, or_false, forall_eq_or_imp,
        forall_eq, false_imp_iff, implies_true, List.Pairwise.nil, and_true]
      exact ⟨⟨hne hdistinct.1, hne hdistinct.2.1⟩, hne hdistinct.2.2⟩
  have hruns := runs_run (fun q s r t =>
      (r, t) = Sample.peersHolding [Sample.legacyIdentity, Sample.namingGenesis] q s)
    (Sample.peersHolding [Sample.legacyIdentity, Sample.namingGenesis]) (fun _ _ => rfl)
    (readRemoteIdentityPredecessorChain Sample.runtime Sample.reader (toHex Sample.identityKey)
      Sample.afterGenesis) Sample.readerState
  refine absurd (hreturned _ hchain (fun e he h hh => ?_) Sample.readerState _ _ rfl hruns) ?_
  · have he : e = Sample.legacyIdentity ∨ e = Sample.namingGenesis := by simpa using he
    rcases he with he | he
    · rw [he] at hh ⊢
      exact Sample.peersHold_peersHolding hh (by decide +kernel)
    · rw [he] at hh ⊢
      exact Sample.peersHold_peersHolding hh (by decide +kernel)
  · decide +kernel

/-- **The walk reads legacy off the SignedUpdate**: it returns a chain that starts with a
multisignature envelope which is no genesis. -/
theorem unauthorizedEnvelope_startsWalk :
    ¬ ∀ current chain s t, Runs (fun q s r t => (r, t) = Sample.peersHolding [] q s)
        (readRemoteIdentityPredecessorChain Sample.runtime Sample.reader
          (toHex Sample.identityKey) current) s (.ok (some chain)) t →
      ∀ e ∈ chain.head?, isMultisignatureEnvelope Sample.runtime e = false ∨
        ∃ update a, DecodesTo Sample.runtime e update ∧ update.authorization = some a ∧
          a.operation = .genesis := by
  intro hstarts
  obtain ⟨hreturned, hmultisignature, hunauthorized⟩ :
      (run (Sample.peersHolding []) (readRemoteIdentityPredecessorChain Sample.runtime
        Sample.reader (toHex Sample.identityKey) Sample.unauthorizedEnvelope)
        Sample.readerState).1 = .ok (some [Sample.unauthorizedEnvelope]) ∧
      isMultisignatureEnvelope Sample.runtime Sample.unauthorizedEnvelope = true ∧
      (fun update : SignedUpdate => update.authorization) <$>
        (envelopeSignedUpdateBytes Sample.runtime Sample.unauthorizedEnvelope >>=
          decodeCanonicalSignedUpdate Sample.runtime) = .ok none := by
    decide +kernel
  have hruns := runs_run (fun q s r t => (r, t) = Sample.peersHolding [] q s)
    (Sample.peersHolding []) (fun _ _ => rfl)
    (readRemoteIdentityPredecessorChain Sample.runtime Sample.reader (toHex Sample.identityKey)
      Sample.unauthorizedEnvelope) Sample.readerState
  rw [hreturned] at hruns
  rcases hstarts _ _ _ _ hruns _ rfl with hlegacy | ⟨update, a, ⟨u, hu, hupdate⟩, ha, -⟩
  · cases hmultisignature.symm.trans hlegacy
  · rw [hu, ok_bind, hupdate] at hunauthorized
    cases ha.symm.trans (Except.ok.inj hunauthorized)

end DecentRegistry
