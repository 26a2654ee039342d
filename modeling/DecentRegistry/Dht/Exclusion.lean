import DecentRegistry.Dht.ConditionalPut
import DecentRegistry.Dht.LockUse
import DecentRegistry.Dht.NoRollback
import DecentRegistry.Dht.Succession

/-!
# Conditional publications exclude one another

A conditional publication of a multisignature Identity that returns has found, under the lock, a
state with the hash it expects that is at least as new as the durable head, and has left its own
envelope as the head (`putUnderLock_publishes`). Sections follow one another and heads do not go
back, so that of two such publications of one record one found a state at least as new as the
envelope of the other (`conditionalPuts_exclusive`). In particular they did not expect the same
hash, unless SHA-256 collides on the two states they found (`TakesPlace.collide`). -/

namespace DecentRegistry

open Fallible PyValue Coroutine Lock LMDBDatastore

variable {rt : Runtime} {d : DhtInstance} {recordKey e expected : Bytes}
  {E : (q : Request) → Py q.Answer → DhtState → Prop}

/-! ## What a publication does -/

/-- The durable head of a record, if there is one, has at most the sequence number. -/
def HeadAtMost (rt : Runtime) (recordKey : Bytes) (n : ℕ) (s : DhtState) : Prop :=
  ∀ head k, s.durable.get .identity recordKey = some head → envelopeSeq rt head = .ok k → k ≤ n

/-- Where the answers are as `E` says, the state is found: it is what the DHT answers, or the
durable head there and then, whichever is newer. -/
def FindsState (rt : Runtime) (E : (q : Request) → Py q.Answer → DhtState → Prop)
    (recordKey existing : Bytes) : Prop :=
  ∃ hex rawDht s, fromHex hex = .ok recordKey ∧
    E (.getValue (kadKey hex .identity) 0) (.ok rawDht) s ∧
    selectNewestEnvelope rt rawDht (s.durable.get .identity recordKey) = .ok (some existing)

/-- The envelope takes the place of a state that was found, with the expected hash. -/
structure TakesPlace (rt : Runtime) (E : (q : Request) → Py q.Answer → DhtState → Prop)
    (recordKey e expected existing : Bytes) (n m : ℕ) : Prop where
  found : FindsState rt E recordKey existing
  hash : HasStateHash rt existing expected
  before : envelopeSeq rt existing = .ok n
  after : envelopeSeq rt e = .ok m
  newer : n < m

/-- The envelope was put over a state with the expected hash: none of the heads at the beginning is
newer than that state, and the envelope is the head at the end. -/
structure PublishedOver (rt : Runtime) (E : (q : Request) → Py q.Answer → DhtState → Prop)
    (recordKey e expected existing : Bytes) (n m : ℕ) (s t : DhtState) : Prop
    extends TakesPlace rt E recordKey e expected existing n m where
  newest : HeadAtMost rt recordKey n s
  head : t.durable.get .identity recordKey = some e

theorem advances_trans {s t u : LMDBDatastore} (h : Advances rt s t) (h' : Advances rt t u) :
    Advances rt s u := by
  intro key head hhead
  obtain ⟨head', hhead', hnewer⟩ := h key head hhead
  obtain ⟨head'', hhead'', hnewer'⟩ := h' key head' hhead'
  refine ⟨head'', hhead'', ?_⟩
  rcases hnewer with rfl | ⟨n, n', hn, hn', hlt⟩
  · exact hnewer'
  · rcases hnewer' with rfl | ⟨k, k', hk, hk', hlt'⟩
    · exact .inr ⟨n, n', hn, hn', hlt⟩
    · obtain rfl := Except.ok.inj (hn'.symm.trans hk)
      exact .inr ⟨n, k', hn, hk', hlt.trans hlt'⟩

theorem keepsHeads_trans (r s t : DhtState) (h : KeepsHeads rt r s) (h' : KeepsHeads rt s t) :
    KeepsHeads rt r t := by
  intro hr
  obtain ⟨hs, hrs⟩ := h hr
  obtain ⟨ht, hst⟩ := h' hs
  exact ⟨ht, advances_trans hrs hst⟩

/-- Heads that are not newer later were not newer before. -/
theorem HeadAtMost.of_keeps {n : ℕ} {s t : DhtState} (h : HeadAtMost rt recordKey n t)
    (hst : KeepsHeads rt s t) (hs : RecordsHeads rt s.durable) : HeadAtMost rt recordKey n s := by
  intro head k hhead hk
  obtain ⟨head', hhead', rfl | ⟨i, j, hi, hj, hlt⟩⟩ := (hst hs).2 _ _ hhead
  · exact h head' k hhead' hk
  · obtain rfl := Except.ok.inj (hk.symm.trans hi)
    exact hlt.le.trans (h head' j hhead' hj)

/-- The state chosen for a publication is at least as new as the durable head. -/
theorem headAtMost_of_select {s : DhtState} {rawDht : Option Bytes} {existing : Bytes} {n : ℕ}
    (h : selectNewestEnvelope rt rawDht (s.durable.get .identity recordKey) = .ok (some existing))
    (hn : envelopeSeq rt existing = .ok n) : HeadAtMost rt recordKey n s := by
  intro head k hhead hk
  rw [hhead] at h
  rcases selectNewestEnvelope_head hk h with heq | ⟨x, m, heq, -, -, hm, hlt⟩
  · obtain rfl := Option.some.inj heq
    exact (Except.ok.inj (hk.symm.trans hn)).le
  · obtain rfl := Option.some.inj heq
    obtain rfl := Except.ok.inj (hm.symm.trans hn)
    exact hlt.le

/-- A multisignature envelope that is accepted over another is newer. -/
theorem newer_of_overwrite {existing : Bytes} {chain : Option (List Bytes)}
    {r : IdentityOverwriteResult} (he : isMultisignatureEnvelope rt e = true)
    (h : validateIdentityOverwrite rt recordKey e (some existing) chain = .ok r) :
    ∃ n m, envelopeSeq rt existing = .ok n ∧ envelopeSeq rt e = .ok m ∧ n < m := by
  obtain ⟨l, s, run, hexisting⟩ := validateIdentityOverwrite_run he h
  obtain ⟨before, rfl⟩ := List.getLast?_eq_some_iff.1 (hexisting existing rfl).1
  exact (Succession.accepted run).newer

/-! ## The critical section -/

section Body

variable {s : DhtState}

theorem wp_true {c : Contract DhtState Request Request.Answer PyError} {α : Type} {p : Dht α}
    (hc : ∀ s t, c.guarantee s t) : wp c p (fun _ _ => True) s := by
  induction p generalizing s with
  | ret => trivial
  | raise => trivial
  | atomic act next ih => exact ⟨hc _ _, ih _⟩
  | await q resume ih => exact fun r t _ => ih r

/-- Quiet parts keep the heads. -/
theorem Quiet.wp_underLock {α : Type} {p : Dht α} {Φ : α → Prop} (h : Quiet p Φ) (s : DhtState) :
    wp (underLock E (KeepsHeads rt)) p (fun x t => KeepsHeads rt s t ∧ ∀ a, x = .ok a → Φ a) s :=
  Ensures.wp (c := underLock E (KeepsHeads rt)) (I := KeepsHeads rt) h
    (fun _ => keepsHeads_of_same rfl) keepsHeads_trans
    (fun _ _ h => ⟨trivial, keepsHeads_of_same h⟩) (fun _ _ _ _ h => h.2.1) s

theorem wp_durableGet (hd : d.durableStore.isSome = true) (s : DhtState) :
    wp (underLock E (KeepsHeads rt)) (durableGet d .identity recordKey)
      (fun x t => t = s ∧ x = .ok (s.durable.get .identity recordKey)) s := by
  obtain ⟨backend, hd⟩ := Option.isSome_iff_exists.1 hd
  simp only [durableGet, hd, Option.isNone_some, Bool.false_eq_true, if_false]
  exact wp_reads.2 ⟨trivial, rfl, rfl⟩

/-- A conditional publication asks the DHT once, and takes its answer. -/
theorem wp_readIdentityForPut {hex : Text} {condition : PublicationCondition} (s : DhtState) :
    wp (underLock E (KeepsHeads rt)) (readIdentityForPut d hex (some condition))
      (fun x t => KeepsHeads rt s t ∧ ∀ rawDht, x = .ok rawDht →
        E (.getValue (kadKey hex .identity) 0) (.ok rawDht) t) s := by
  refine fun r t ⟨hE, hR, _⟩ => ?_
  cases r with
  | ok rawDht => exact ⟨hR, fun _ h => Except.ok.inj h ▸ hE⟩
  | error err =>
    change wp _ (if err.cls.isException = true then Coro.raise _ else Coro.raise err) _ t
    split <;> exact ⟨hR, nofun⟩

theorem wp_storePutIfNewer {w : AcceptedWrite} (s : DhtState) :
    wp (underLock E (KeepsHeads rt)) (storePutIfNewer rt w)
      (fun x t => x = .ok true → t.durable.get w.kind w.key = some w.value) s := by
  refine wp_transact.2 ⟨trivial, ?_⟩
  split
  · rename_i accepted D hput
    obtain ⟨m, encodedHistory, -, haccepted, rfl⟩ := putIfNewer_eq_ok.1 hput
    intro hx
    obtain rfl := Except.ok.inj hx
    simp
  · rintro ⟨⟩

/-- An installed envelope is the head. -/
theorem wp_durableInstall (hd : d.durableStore = some ⟨true, true⟩) {result : ResultAttributes}
    {history : Option (List Bytes)} (s : DhtState) :
    wp (underLock E (KeepsHeads rt)) (durableInstall rt d .identity recordKey e result history)
      (fun x t => x = .ok () → t.durable.get .identity recordKey = some e) s := by
  have hsome : d.durableStore.isSome = true := by rw [hd]; rfl
  simp only [durableInstall, if_true, hd]
  refine wp_bind_of (Ψ := fun _ _ => True) (wp_lift.2 trivial) (fun _ _ _ h => by cases h)
    fun _ s _ => ?_
  unfold installAccepted
  refine wp_bind_of (wp_durableGet hsome s) (fun _ _ _ h => by cases h) ?_
  rintro _ t ⟨rfl, hcurrent⟩
  obtain rfl := Except.ok.inj hcurrent
  split
  · rename_i hsame
    exact fun _ => hsame
  refine wp_bind_of (Ψ := fun _ _ => True) (wp_lift.2 trivial) (fun _ _ _ h => by cases h) ?_
  rintro ⟨seq, stateHash⟩ t -
  dsimp only
  rw [if_neg (by simp)]
  refine wp_bind_of (wp_storePutIfNewer t) (fun _ _ _ h => by cases h)
    fun accepted t haccepted => ?_
  cases accepted with
  | true => exact fun _ => haccepted rfl
  | false =>
    simp only [Bool.not_false, if_true]
    refine wp_bind_of (wp_durableGet hsome t) (fun _ _ _ h => by cases h) ?_
    rintro _ t ⟨rfl, hcurrent⟩
    obtain rfl := Except.ok.inj hcurrent
    split
    · rename_i hsame
      exact fun _ => hsame
    · exact wp_raise.2 fun h => by cases h

/-- **A conditional publication** that returns found a state with the expected hash, at least as new
as the head, and left its envelope as the head. -/
theorem putUnderLock_publishes (hd : d.durableStore = some ⟨true, true⟩)
    (he : isMultisignatureEnvelope rt e = true) {hex : Text} (hkey : fromHex hex = .ok recordKey)
    (expiresAt : Int) (s : DhtState) (hs : RecordsHeads rt s.durable) :
    wp (underLock E (KeepsHeads rt))
      (putUnderLock rt d hex recordKey e (some ⟨expected, expiresAt⟩))
      (fun x t => x = .ok () → ∃ existing n m,
        PublishedOver rt E recordKey e expected existing n m s t) s := by
  have hsome : d.durableStore.isSome = true := by rw [hd]; rfl
  refine wp_bind_of (wp_readIdentityForPut s) (fun _ _ _ h => by cases h) ?_
  rintro rawDht s₁ ⟨hs₁, hanswer⟩
  refine wp_bind_of (wp_durableGet hsome s₁) (fun _ _ _ h => by cases h) ?_
  rintro _ s₂ ⟨rfl, hlocal⟩
  obtain rfl := Except.ok.inj hlocal
  -- the head that was read is not older than the one at the beginning
  refine wp_bind_of (Ψ := fun x t => selectIdentityForPut rt (some ⟨expected, expiresAt⟩) rawDht
    (s₂.durable.get .identity recordKey) = x) (wp_lift.2 rfl) (fun _ _ _ h => by cases h) ?_
  rintro rawExisting s₃ hselect
  refine wp_bind_of
    (Ψ := fun x t => checkExpectedState rt (some ⟨expected, expiresAt⟩) rawExisting = x)
    (wp_lift.2 rfl) (fun _ _ _ h => by cases h) ?_
  rintro _ s₄ hexpected
  obtain ⟨existing, rfl, hhash⟩ := checkExpectedState_inv hexpected
  have hselected : selectNewestEnvelope rt rawDht (s₂.durable.get .identity recordKey) =
      .ok (some existing) := rewrap_eq_ok.1 hselect
  refine wp_bind_of ((requireServableHistory_quiet _ _).wp_underLock s₄) (fun _ _ _ h => by cases h)
    fun _ s₅ _ => ?_
  simp only [he, Bool.true_or, Bool.not_true, Bool.false_eq_true, if_false]
  refine wp_bind_of ((predecessorChainForPut_quiet _ _ _).wp_underLock s₅)
    (fun _ _ _ h => by cases h) fun chain s₆ _ => ?_
  refine wp_bind_of
    (Ψ := fun x t => validateIdentityOverwrite rt recordKey e (some existing) chain = x)
    (wp_lift.2 rfl) (fun _ _ _ h => by cases h) ?_
  rintro r s₇ haccepted
  obtain ⟨n, m, hn, hm, hlt⟩ := newer_of_overwrite he haccepted
  have hnewest : HeadAtMost rt recordKey n s :=
    (headAtMost_of_select hselected hn).of_keeps hs₁ hs
  simp only [Option.isSome_some, he, and_self, if_true]
  refine wp_bind_of (Ψ := fun _ _ => True) (wp_lift.2 trivial) (fun _ _ _ h => by cases h)
    fun _ s₈ _ => ?_
  refine wp_bind_of ((checkNotExpired_quiet _).wp_underLock s₈) (fun _ _ _ h => by cases h)
    fun _ s₉ _ => ?_
  refine wp_bind_of ((publishDhtValue_quiet _ _ _).wp_underLock s₉) (fun _ _ _ h => by cases h)
    fun _ s₁₀ _ => ?_
  exact wp_mono (wp_durableInstall hd s₁₀) fun x t hinstalled hx =>
    ⟨existing, n, m, ⟨⟨hex, rawDht, s₂, hkey, hanswer _ rfl, hselected⟩, hhash, hn, hm, hlt⟩,
      hnewest, hinstalled hx⟩

end Body

/-! ## The sections of the calls -/

/-- The outcome of a call that ends without the lock: a conditional publication does not return. -/
def WithoutLock : DhtCall → Py Unit → Prop
  | .putIdentityIfCurrent _ _ _ _, x => x ≠ .ok ()
  | _, _ => True

/-- The section of a call: a conditional publication of a multisignature envelope that returns
publishes over the state it expects. -/
def UnderLock (rt : Runtime) (E : (q : Request) → Py q.Answer → DhtState → Prop) :
    DhtCall → DhtState → Py Unit → DhtState → Prop
  | .putIdentityIfCurrent objectKeyHex e expected _, s, x, t =>
    isMultisignatureEnvelope rt e = true → RecordsHeads rt s.durable → x = .ok () →
      ∃ recordKey stateHash existing n m, fromHex objectKeyHex = .ok recordKey ∧
        expected = some stateHash ∧ PublishedOver rt E recordKey e stateHash existing n m s t
  | _, _, _, _ => True

section Calls

variable {Ψ : Py Unit → Prop} {Φ : DhtState → Py Unit → DhtState → Prop}

/-- A method that takes the lock at once. -/
theorem outside_locked {β : Type} {body : Dht β} (hbody : Unlocked body) (hΨ : ∀ x, Ψ x)
    (hΦ : ∀ s x t, Φ s x t) (s : DhtState) :
    acceptedLock.Outside E (KeepsHeads rt) Ψ Φ (withAcceptedLock body >>= fun _ => pure ()) s :=
  outside_withAcceptedLock hbody (fun _ => hΨ _)
    (fun _ => wp_mono (wp_true fun _ _ => trivial) fun _ _ _ => hΦ _ _ _) s

theorem withAcceptedLock_unit (body : Dht Unit) :
    withAcceptedLock body = (withAcceptedLock body >>= fun _ => pure ()) := (bind_pure _).symm

/-- A method that takes the lock after some checks. -/
theorem outside_checked {body : Bytes → Dht Unit} {x : Py Bytes}
    (hbody : ∀ key, Unlocked (body key))
    (hΨ : ∀ y, Ψ y) (hΦ : ∀ s y t, Φ s y t) (s : DhtState) :
    acceptedLock.Outside E (KeepsHeads rt) Ψ Φ
      (liftM x >>= fun key => withAcceptedLock (body key)) s := by
  refine Lockfree.lift.outside_bind (fun _ => hΨ _) (fun key s => ?_) s
  rw [withAcceptedLock_unit]
  exact outside_locked (hbody key) hΨ hΦ s

theorem outside_putIfCurrent (hd : d.durableStore = some ⟨true, true⟩) (hex : Text) (e : Bytes)
    (expected : Option Bytes) (expiresAt : Int) (s : DhtState) :
    acceptedLock.Outside E (KeepsHeads rt)
      (WithoutLock (.putIdentityIfCurrent hex e expected expiresAt))
      (UnderLock rt E (.putIdentityIfCurrent hex e expected expiresAt))
      (putSignedIdentityRecordIfCurrent rt d hex e expected expiresAt) s := by
  have herror : ∀ err, WithoutLock (.putIdentityIfCurrent hex e expected expiresAt) (.error err) :=
    fun _ h => by cases h
  cases expected with
  | none => exact herror _
  | some stateHash =>
    change acceptedLock.Outside _ _ _ _ (liftM (raiseIf (stateHash.length ≠ 32) _) >>= fun _ =>
      putIdentityRecord rt d hex e (some ⟨stateHash, expiresAt⟩)) s
    refine Lockfree.lift.outside_bind herror (fun _ s => ?_) s
    rw [putIdentityRecord_eq]
    cases hkey : fromHex hex with
    | error err => exact herror err
    | ok recordKey =>
      change acceptedLock.Outside _ _ _ _ (withAcceptedLock _) s
      rw [withAcceptedLock_unit]
      refine outside_withAcceptedLock (putUnderLock_unlocked _ _ _ _) herror (fun s => ?_) s
      by_cases he : isMultisignatureEnvelope rt e = true
      · by_cases hs : RecordsHeads rt s.durable
        · refine wp_mono (putUnderLock_publishes hd he hkey expiresAt s hs) fun x t h _ _ hx => ?_
          obtain ⟨existing, n, m, hpublished⟩ := h (by cases x <;> cases hx; rfl)
          exact ⟨recordKey, stateHash, existing, n, m, hkey, rfl, { hpublished with }⟩
        · exact wp_mono (wp_true fun _ _ => trivial) fun _ _ _ _ h => absurd h hs
      · exact wp_mono (wp_true fun _ _ => trivial) fun _ _ _ h => absurd h he

theorem dhtCall_outside (hd : d.durableStore = some ⟨true, true⟩) (call : DhtCall) (s : DhtState) :
    acceptedLock.Outside E (KeepsHeads rt) (WithoutLock call) (UnderLock rt E call)
      (call.task rt d) s := by
  have hunlocked {p : Dht Unit} {call : DhtCall} (hp : Unlocked p) (h : ∀ x, WithoutLock call x) :
      acceptedLock.Outside E (KeepsHeads rt) (WithoutLock call) (UnderLock rt E call) p s :=
    hp.outside h s
  cases call with
  | putIdentity hex e =>
    exact outside_checked (fun _ => putUnderLock_unlocked _ _ _ _) (fun _ => trivial)
      (fun _ _ _ => trivial) s
  | putIdentityIfCurrent hex e expected expiresAt => exact outside_putIfCurrent hd _ _ _ _ s
  | getIdentityEnvelope hex quorum =>
    simp only [DhtCall.task, DecentRegistry.getIdentityEnvelope, bind_assoc]
    exact outside_locked (getValidatedIdentityEnvelopeUnlocked_unlocked _ _) (fun _ => trivial)
      (fun _ _ _ => trivial) s
  | getIdentityRecord hex quorum =>
    simp only [DhtCall.task, getSignedIdentityRecord, bind_assoc]
    exact outside_locked (getValidatedIdentityEnvelopeUnlocked_unlocked _ _) (fun _ => trivial)
      (fun _ _ _ => trivial) s
  | confirmRotation ownerNameHex expected =>
    exact hunlocked (.bind (confirmIdentityOwnerKeyRotation_unlocked _ _) fun _ => .pure)
      fun _ => trivial
  | putProvider objectHash e =>
    exact outside_checked (fun _ => putProviderUnderLock_unlocked _ _ _) (fun _ => trivial)
      (fun _ _ _ => trivial) s
  | getProvider objectHash quorum =>
    exact hunlocked (.bind (getSignedProviderRecord_unlocked _ _) fun _ => .pure) fun _ => trivial
  | inboundPut key value => exact hunlocked (inboundPut_unlocked _ _) fun _ => trivial

end Calls

/-! ## Runs -/

/-- The SignedUpdates of two envelopes are different and have the same hash. -/
def Collide (rt : Runtime) (x y : Bytes) : Prop :=
  ∃ u v, envelopeSignedUpdateBytes rt x = .ok u ∧ envelopeSignedUpdateBytes rt y = .ok v ∧ u ≠ v ∧
    rt.sha256 u = rt.sha256 v

/-- Publications one of which found what is at least as new as the other collide where they expected
the same hash. -/
theorem TakesPlace.collide {E' : (q : Request) → Py q.Answer → DhtState → Prop} {e' x y : Bytes}
    {n m n' m' : ℕ} (h : TakesPlace rt E recordKey e expected x n m)
    (h' : TakesPlace rt E' recordKey e' expected y n' m') (hle : m ≤ n' ∨ m' ≤ n) :
    Collide rt x y := by
  obtain ⟨u, hu, hhash⟩ := h.hash
  obtain ⟨v, hv, hhash'⟩ := h'.hash
  refine ⟨u, v, hu, hv, ?_, hhash.trans hhash'.symm⟩
  rintro rfl
  -- the sequence number is part of the SignedUpdate
  obtain ⟨u', _, hu', hload, hseq⟩ := envelopeSeq_eq_ok.1 h.before
  obtain ⟨v', _, hv', hload', hseq'⟩ := envelopeSeq_eq_ok.1 h'.before
  obtain rfl := Except.ok.inj (hu.symm.trans hu')
  obtain rfl := Except.ok.inj (hv.symm.trans hv')
  obtain rfl := Except.ok.inj (hload.symm.trans hload')
  have hsame : n = n' := by simpa using hseq.symm.trans hseq'
  have hlt := h.newer
  have hlt' := h'.newer
  omega

/-- The section of one publication came before that of the other. -/
theorem le_of_published {E' : (q : Request) → Py q.Answer → DhtState → Prop}
    {e' x y stateHash stateHash' : Bytes} {n m n' m' : ℕ} {s t s' t' : DhtState}
    (h : PublishedOver rt E recordKey e stateHash x n m s t)
    (h' : PublishedOver rt E' recordKey e' stateHash' y n' m' s' t')
    (ht : RecordsHeads rt t.durable) (hts : KeepsHeads rt t s') : m ≤ n' :=
  (h'.newest.of_keeps hts ht) e m h.head h.after

/-- The requests that were answered, each with the number of the call that made it. -/
abbrev RequestLog := List (ℕ × Asked DhtState Request Request.Answer PyError)

/-- Call number `i` was a conditional publication of a multisignature envelope, and has returned. -/
structure ReturnedPublication (rt : Runtime) (recordKey : Bytes) (ls : List DhtCall)
    (c : Pool DhtState Request Request.Answer PyError) (i : ℕ) (e stateHash : Bytes) : Prop where
  called : ∃ hex expiresAt, fromHex hex = .ok recordKey ∧
    ls[i]? = some (.putIdentityIfCurrent hex e (some stateHash) expiresAt)
  multisignature : isMultisignatureEnvelope rt e = true
  returned : c.tasks[i]? = some (.ret ())

/-- The calls with the numbers `i` and `j` took the place of states that they found under the lock,
one of which is at least as new as the envelope of the other call. If they expected the same hash,
it is a collision of these two states. -/
def InTurn (rt : Runtime) (recordKey : Bytes) (asked : RequestLog) (i j : ℕ)
    (e stateHash e' stateHash' : Bytes) : Prop :=
  ∃ x y n m n' m', TakesPlace rt (answersTo asked i) recordKey e stateHash x n m ∧
    TakesPlace rt (answersTo asked j) recordKey e' stateHash' y n' m' ∧ (m ≤ n' ∨ m' ≤ n) ∧
    (stateHash = stateHash' → Collide rt x y)

/-- Any two conditional publications of a record that returned are in turn. -/
def PublicationsExclusive (rt : Runtime) (ls : List DhtCall) (asked : RequestLog)
    (c : Pool DhtState Request Request.Answer PyError) : Prop :=
  ∀ recordKey i j e e' stateHash stateHash', i ≠ j →
    ReturnedPublication rt recordKey ls c i e stateHash →
    ReturnedPublication rt recordKey ls c j e' stateHash' →
    InTurn rt recordKey asked i j e stateHash e' stateHash'

/-- **Conditional publications exclude one another.** In every interleaving of any calls on an
instance with a complete store, whatever the DHT and the peers answer, of two conditional
publications of multisignature envelopes of one Identity that return, one found under the lock a
state at least as new as the envelope of the other. So two publications that expect the same hash do
not both return, unless the two states they found are a collision. -/
theorem conditionalPuts_exclusive (hrt : rt.RoundTrips) (hd : d.durableStore = some ⟨true, true⟩)
    {s₀ : DhtState} (hrecords : RecordsHeads rt s₀.durable) (hfree : s₀.acceptedLock = false)
    {ls : List DhtCall} {asked : RequestLog} {c : Pool DhtState Request Request.Answer PyError}
    (h : Called (anySchedule rt d) (DhtCall.task rt d) s₀ ls asked c) :
    PublicationsExclusive rt ls asked c := by
  have hputs : d.PutsIfNewer := by
    rintro backend hbackend
    obtain rfl := Option.some.inj (hd.symm.trans hbackend)
    rfl
  have hsteps : ∀ c c', Pool.Reachable (anySchedule rt d) s₀ c → Pool.Step (anySchedule rt d) c c' →
      KeepsHeads rt c.state c'.state := by
    intro c c' hc hstep
    refine (hc.step_guarantee (fun _ => keepsHeads_of_same rfl) ?_ ?_ ?_).2 c' hstep
    · rintro s _ ⟨call, -, rfl⟩
      exact dhtCall_keeps hrt hputs call
    · rintro q s r t ⟨-, hanswered⟩
      exact keepsHeads_of_same hanswered.sameDurable
    · exact fun _ _ hdrifts => keepsHeads_of_same hdrifts.1
  obtain ⟨log, holder, hserialized⟩ := h.serialized keepsHeads_trans
    (fun _ => keepsHeads_of_same rfl) acceptedLock_respects (by simp [acceptedLock, hfree])
    (fun i call s _ => dhtCall_outside hd call s) hsteps fun _ => answersTo_of_mem
  intro recordKey i j e e' stateHash stateHash' hij hi hj
  obtain ⟨hex, expiresAt, hkey, hcall⟩ := hi.called
  obtain ⟨hex', expiresAt', hkey', hcall'⟩ := hj.called
  obtain ⟨a, b, ha, ha', hpublishes, hb, hb', hpublishes', horder⟩ :=
    hserialized.before_or_after hij (x := .ok ()) (y := .ok ()) hi.returned hcall (fun h => h rfl)
      hj.returned hcall' (fun h => h rfl)
  obtain ⟨_, _, x, n, m, hk, heq, hpublished⟩ := hpublishes hi.multisignature (ha hrecords).1 rfl
  obtain ⟨_, _, y, n', m', hk', heq', hpublished'⟩ :=
    hpublishes' hj.multisignature (hb hrecords).1 rfl
  obtain rfl := Except.ok.inj (hkey.symm.trans hk)
  obtain rfl := Except.ok.inj (hkey'.symm.trans hk')
  obtain rfl := Option.some.inj heq
  obtain rfl := Option.some.inj heq'
  have hle : m ≤ n' ∨ m' ≤ n := by
    refine horder.imp ?_ ?_
    · exact le_of_published hpublished hpublished' (ha' hrecords).1
    · exact le_of_published hpublished' hpublished (hb' hrecords).1
  refine ⟨x, y, n, m, n', m', hpublished.toTakesPlace, hpublished'.toTakesPlace, hle, ?_⟩
  rintro rfl
  exact hpublished.toTakesPlace.collide hpublished'.toTakesPlace hle

/-- The publication of an envelope over a sample one. -/
def Sample.putOver (existing e : Bytes) : DhtCall :=
  .putIdentityIfCurrent (toHex identityKey) e (stateHash existing) 1

/-- An upgrade is published over the legacy Identity that the DHT answers, and then a replacement of
its signers over the upgrade. -/
theorem samplePublications_exclusive :
    ∃ (asked : RequestLog) (c : Pool DhtState Request Request.Answer PyError) (h h' : Bytes),
      Called (anySchedule Sample.runtime Sample.node) (DhtCall.task Sample.runtime Sample.node)
        (Sample.stateOver .empty) [Sample.putOver Sample.legacyIdentity Sample.upgrade,
          Sample.putOver Sample.upgrade Sample.replacement] asked c ∧
      c.tasks = [.ret (), .ret ()] ∧
      Sample.stateHash Sample.legacyIdentity = some h ∧
      Sample.stateHash Sample.upgrade = some h' ∧
      InTurn Sample.runtime Sample.identityKey asked 0 1 Sample.upgrade h
        Sample.replacement h' := by
  obtain ⟨hupgrade, hreplacement⟩ :
      (run (Sample.answers (some Sample.legacyIdentity))
        ((Sample.putOver Sample.legacyIdentity Sample.upgrade).task Sample.runtime Sample.node)
        (Sample.stateOver .empty)).1 = .ok () ∧
      (run (Sample.answers (some Sample.legacyIdentity))
        ((Sample.putOver Sample.upgrade Sample.replacement).task Sample.runtime Sample.node)
        (Sample.after (some Sample.legacyIdentity)
          (Sample.putOver Sample.legacyIdentity Sample.upgrade) (Sample.stateOver .empty))).1 =
        .ok () := by
    decide +kernel
  have hkey : fromHex (toHex Sample.identityKey) = .ok Sample.identityKey := by decide +kernel
  have hmultisignature : isMultisignatureEnvelope Sample.runtime Sample.upgrade = true ∧
      isMultisignatureEnvelope Sample.runtime Sample.replacement = true := by
    decide +kernel
  have hmade {call : DhtCall} {s : DhtState} {x : Py Unit}
      (hx : (run (Sample.answers (some Sample.legacyIdentity))
        (call.task Sample.runtime Sample.node) s).1 = x) :
      ∃ made, Traced (anySchedule Sample.runtime Sample.node).answers
        (call.task Sample.runtime Sample.node) s made x
        (Sample.after (some Sample.legacyIdentity) call s) :=
    (hx ▸ runs_run _ _ (fun q s => ⟨trivial, Sample.answered_answers _ q s⟩) _ _ :
      Runs (anySchedule Sample.runtime Sample.node).answers
        (call.task Sample.runtime Sample.node) s x
        (Sample.after (some Sample.legacyIdentity) call s)).traced
  have hstart : Called (anySchedule Sample.runtime Sample.node)
      (DhtCall.task Sample.runtime Sample.node) (Sample.stateOver .empty) [] []
      ⟨Sample.stateOver .empty, [], none⟩ := .start
  obtain ⟨_, hmade₁⟩ := hmade hupgrade
  obtain ⟨_, hmade₂⟩ := hmade hreplacement
  have hcalled := (hstart.run ⟨_, trivial, rfl⟩ hmade₁).run ⟨_, trivial, rfl⟩ hmade₂
  obtain ⟨h, hh⟩ : ∃ h, Sample.stateHash Sample.legacyIdentity = some h :=
    Option.isSome_iff_exists.1 (by decide +kernel)
  obtain ⟨h', hh'⟩ : ∃ h, Sample.stateHash Sample.upgrade = some h :=
    Option.isSome_iff_exists.1 (by decide +kernel)
  simp only [Sample.putOver, hh, hh'] at hcalled ⊢
  refine ⟨_, _, h, h', hcalled, rfl, rfl, rfl, ?_⟩
  exact conditionalPuts_exclusive Sample.runtime_roundTrips rfl recordsHeads_empty rfl hcalled _ 0 1
    _ _ _ _ (by decide) ⟨⟨_, _, hkey, rfl⟩, hmultisignature.1, rfl⟩
    ⟨⟨_, _, hkey, rfl⟩, hmultisignature.2, rfl⟩

end DecentRegistry
