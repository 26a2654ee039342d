import DecentRegistry.Authority.Standalone
import DecentRegistry.Dht.Caching
import DecentRegistry.Sample.Dht

/-!
# Identity reads fail closed

A multisignature Identity that a read returns ends a chain that `validate_multisignature_history`
accepts (`TrustedChain`), however the chain came together: from local history, from the local head
and the value read, or from the walk along predecessor hashes. A read that returns nothing or raises
leaves the durable store as it was (`identityReads_fail_closed`).
-/

namespace DecentRegistry

open Fallible PyValue Coroutine Replay

variable {rt : Runtime} {d : DhtInstance}

/-! ## Trusted chains -/

/-- An accepted history of a record that ends in an envelope and begins at a genesis or at a signed
legacy Identity. -/
structure TrustedChain (rt : Runtime) (recordKey : Bytes) (chain : List Bytes) (e : Bytes) :
    Prop where
  last : chain.getLast? = some e
  anchor : ∃ first rest, chain = first :: rest ∧
    (GenesisAnchor rt first ∨ LegacyAnchor rt recordKey first)
  accepted : ∃ state, validateMultisignatureHistory rt recordKey chain = .ok state

theorem trustedChain_of_history {recordKey e : Bytes} {chain : List Bytes}
    {s : MultisignatureState} (hlast : chain.getLast? = some e)
    (h : validateMultisignatureHistory rt recordKey chain = .ok s) :
    TrustedChain rt recordKey chain e := by
  obtain ⟨first, rest, r, rfl, hanchor, -⟩ :=
    replays_iff.1 (validateMultisignatureHistory_eq_ok.1 h).1
  exact ⟨hlast, ⟨first, rest, rfl, hanchor.authorized⟩, s, h⟩

/-- What `validate_identity_get` returns of a multisignature envelope is validated by a chain. -/
theorem validateIdentityGet_trusted {recordKey e : Bytes} {chain : Option (List Bytes)}
    {r : IdentityRead} (h : validateIdentityGet rt recordKey e chain = .ok r)
    (hr : isMultisignatureEnvelope rt e = true) :
    ∃ chain, TrustedChain rt recordKey chain e := by
  simp only [validateIdentityGet, hr, if_true, bind_eq_ok, raiseIf_eq_ok, not_not] at h
  obtain ⟨state, hstate, -, hkind, -, hhistory, -⟩ := h
  cases chain with
  | some chain =>
    simp only [readIdentityState, requireHistoryEndingAt, bind_eq_ok, raiseIf_eq_ok,
      not_not] at hstate
    obtain ⟨-, hlast, hstate⟩ := hstate
    exact ⟨chain, trustedChain_of_history hlast hstate⟩
  | none =>
    exact ⟨[e], trustedChain_of_history rfl
      (validateMultisignatureHistory_singleton hstate hkind hhistory)⟩

/-- Only a multisignature envelope is read as a multisignature record. -/
theorem isMultisignatureEnvelope_of_record {recordKey e : Bytes} {chain : Option (List Bytes)}
    {r : IdentityRecordResult} (h : validateIdentityGet rt recordKey e chain = .ok (.record r)) :
    isMultisignatureEnvelope rt e = true := by
  by_contra hne
  simp [validateIdentityGet, hne] at h

/-! ## Runs of a read -/

variable {rely : (q : Request) → DhtState → Py q.Answer → DhtState → Prop} {s t v : DhtState}
  {l l' : Trace}

/-- A cache write that raises has not written. -/
theorem durableCache_raises {kind : RecordKind} {key value : Bytes} {result : ResultAttributes}
    {history : Option (List Bytes)} {e : PyError}
    (h : Traced rely (durableCache rt d kind key value result history) s l (.error e) t) :
    Between SameDurable s l t := by
  unfold durableCache at h
  split at h
  · cases h.pure_inv.2.1
  rcases quiet_bind (Φ := fun _ => True) (.lift fun _ _ => trivial) h with
    ⟨_, -, hl⟩ | ⟨_, v, l₁, l₂, -, -, hl₁, hwrite, rfl⟩
  · exact hl
  refine hl₁.append sameDurable_trans ?_
  dsimp only at hwrite
  split at hwrite
  · cases hwrite.transact_inv.2.1
  · rcases hwrite.bind_inv with ⟨_, u, l₃, l₄, -, hdone, -⟩ | ⟨_, -, hput⟩
    · cases hdone.pure_inv.2.1
    · obtain ⟨rfl, hraised, rfl⟩ := hput.transact_inv
      change SameDurable v _
      revert hraised
      split
      · rintro ⟨⟩
      · exact fun _ => rfl

/-- How a validated read ends: with nothing written, or with what the validator accepted. -/
structure FailsClosed (rt : Runtime) (objectKeyHex : Text) (s : DhtState) (l : Trace)
    (x : Py (Option (Bytes × IdentityRead))) (t : DhtState) : Prop where
  unchanged : x = .ok none ∨ (∃ e, x = .error e) → Between SameDurable s l t
  validated : ∀ e r, x = .ok (some (e, r)) → ∃ recordKey chain,
    fromHex objectKeyHex = .ok recordKey ∧ validateIdentityGet rt recordKey e chain = .ok r

namespace FailsClosed

variable {objectKeyHex : Text}

theorem error {e : PyError} (h : Between SameDurable s l t) :
    FailsClosed rt objectKeyHex s l (.error e) t :=
  ⟨fun _ => h, fun _ _ hx => by cases hx⟩

theorem nothing (h : Between SameDurable s l t) : FailsClosed rt objectKeyHex s l (.ok none) t :=
  ⟨fun _ => h, fun _ _ hx => by cases hx⟩

theorem found {recordKey e : Bytes} {r : IdentityRead} {chain : Option (List Bytes)}
    (hkey : fromHex objectKeyHex = .ok recordKey)
    (h : validateIdentityGet rt recordKey e chain = .ok r) :
    FailsClosed rt objectKeyHex s l (.ok (some (e, r))) t := by
  refine ⟨by simp, fun e' r' hx => ?_⟩
  obtain ⟨rfl, rfl⟩ := Prod.mk.inj (Option.some.inj (Except.ok.inj hx))
  exact ⟨recordKey, chain, hkey, h⟩

theorem after {x : Py (Option (Bytes × IdentityRead))} (hl : Between SameDurable s l v)
    (h : FailsClosed rt objectKeyHex v l' x t) : FailsClosed rt objectKeyHex s (l ++ l') x t :=
  ⟨fun hx => hl.append sameDurable_trans (h.unchanged hx), h.validated⟩

end FailsClosed

/-- Every step before the cache write is quiet, and what is cached and returned was validated. -/
theorem getValidatedIdentityEnvelopeUnlocked_failsClosed {objectKeyHex : Text} {quorum : ℕ}
    {x : Py (Option (Bytes × IdentityRead))}
    (h : Traced rely (getValidatedIdentityEnvelopeUnlocked rt d objectKeyHex quorum) s l x t) :
    FailsClosed rt objectKeyHex s l x t := by
  unfold getValidatedIdentityEnvelopeUnlocked at h
  rcases quiet_bind (.lift fun _ h => h) h with
    ⟨e, rfl, hl⟩ | ⟨recordKey, s₁, l₁, l', -, hkey, hl₁, hread, rfl⟩
  · exact .error hl
  refine .after hl₁ ?_
  rcases quiet_bind (readIdentityForGet_quiet _ _) hread with
    ⟨e, rfl, hl⟩ | ⟨rawDht, s₂, l₂, l', -, -, hl₂, hlocal, rfl⟩
  · exact .error hl
  refine .after hl₂ ?_
  rcases quiet_bind (durableGet_quiet _ _) hlocal with
    ⟨e, rfl, hl⟩ | ⟨rawLocal, s₃, l₃, l', -, -, hl₃, hselect, rfl⟩
  · exact .error hl
  refine .after hl₃ ?_
  have hnothing {s l x}
    (h : Traced rely (pure none : Dht (Option (Bytes × IdentityRead))) s l x t) :
      FailsClosed rt objectKeyHex s l x t := by
    obtain ⟨rfl, rfl, rfl⟩ := h.pure_inv
    exact .nothing rfl
  split at hselect
  · exact hnothing hselect
  · exact hnothing hselect
  rename_i current hcurrent
  rcases quiet_bind (durableHistory_quiet _ _) hselect with
    ⟨e, rfl, hl⟩ | ⟨history, s₄, l₄, l', -, -, hl₄, hvalidate, rfl⟩
  · exact .error hl
  refine .after hl₄ ?_
  rcases quiet_bind (validateCurrentIdentity_quiet _ _ _ _) hvalidate with
    ⟨e, rfl, hl⟩ | ⟨validated, s₅, l₅, l', -, hvalidated, hl₅, hend, rfl⟩
  · exact .error hl
  refine .after hl₅ ?_
  split at hend
  · exact hnothing hend
  rename_i result chain
  have hresult := hvalidated result chain rfl
  split at hend
  · rcases hend.bind_inv with ⟨_, v, l₆, l₇, -, hreturn, rfl⟩ | ⟨e, rfl, hcache⟩
    · obtain ⟨-, rfl, -⟩ := hreturn.pure_inv
      exact .found hkey hresult
    · exact .error (durableCache_raises hcache)
  · obtain ⟨-, rfl, -⟩ := hend.pure_inv
    exact .found hkey hresult

/-- The lock changes nothing of that. -/
theorem getValidatedIdentityEnvelope_failsClosed {objectKeyHex : Text} {quorum : ℕ}
    {x : Py (Option (Bytes × IdentityRead))}
    (h : Traced rely (getValidatedIdentityEnvelope rt d objectKeyHex quorum) s l x t) :
    FailsClosed rt objectKeyHex s l x t := by
  rcases withAcceptedLock_inv h with ⟨e, rfl, rfl⟩ | ⟨s₀, l', rfl, u, hbody, hu⟩
  · exact .error ⟨rfl, rfl⟩
  · have hclosed := getValidatedIdentityEnvelopeUnlocked_failsClosed hbody
    refine ⟨fun hx => ⟨rfl, ?_⟩, hclosed.validated⟩
    have hend : Between SameDurable u ([] : Trace) t := hu
    simpa using (hclosed.unchanged hx).append sameDurable_trans hend

/-! ## The public reads -/

/-- A read that returns nothing or raises. -/
def ReadsNothing {α : Type} (x : Py (Option α)) : Prop := x = .ok none ∨ ∃ e, x = .error e

/-- Of `get_identity_envelope`: a multisignature envelope it returns ends a trusted chain. -/
def EnvelopeTrusted (rt : Runtime) (objectKeyHex : Text) (x : Py (Option Bytes)) : Prop :=
  ∀ e, x = .ok (some e) → isMultisignatureEnvelope rt e = true →
    ∃ recordKey chain, fromHex objectKeyHex = .ok recordKey ∧ TrustedChain rt recordKey chain e

/-- Of `get_signed_identity_record`: a multisignature result it returns is what the validator reads
of an envelope that ends a trusted chain. -/
def RecordTrusted (rt : Runtime) (objectKeyHex : Text) (x : Py (Option IdentityRead)) : Prop :=
  ∀ r, x = .ok (some (.record r)) →
    ∃ recordKey e used chain, fromHex objectKeyHex = .ok recordKey ∧
      validateIdentityGet rt recordKey e used = .ok (.record r) ∧ TrustedChain rt recordKey chain e

theorem getIdentityEnvelope_failsClosed {objectKeyHex : Text} {quorum : ℕ} {x : Py (Option Bytes)}
    (h : Traced rely (getIdentityEnvelope rt d objectKeyHex quorum) s l x t) :
    EnvelopeTrusted rt objectKeyHex x ∧ (ReadsNothing x → Between SameDurable s l t) := by
  rcases h.bind_inv with ⟨a, v, l₁, l₂, hread, hreturn, rfl⟩ | ⟨err, rfl, hread⟩
  · obtain ⟨rfl, rfl, rfl⟩ := hreturn.pure_inv
    have hclosed := getValidatedIdentityEnvelope_failsClosed hread
    rw [List.append_nil]
    refine ⟨fun e he hmultisig => ?_, fun hnone => hclosed.unchanged (.inl ?_)⟩
    · obtain ⟨⟨e, r⟩, rfl, rfl⟩ := Option.map_eq_some_iff.1 (Except.ok.inj he)
      obtain ⟨recordKey, used, hkey, hget⟩ := hclosed.validated e r rfl
      obtain ⟨chain, hchain⟩ := validateIdentityGet_trusted hget hmultisig
      exact ⟨recordKey, chain, hkey, hchain⟩
    · simpa [ReadsNothing] using hnone
  · exact ⟨fun e he => (by cases he),
      fun _ => (getValidatedIdentityEnvelope_failsClosed hread).unchanged (.inr ⟨err, rfl⟩)⟩

theorem getSignedIdentityRecord_failsClosed {objectKeyHex : Text} {quorum : ℕ}
    {x : Py (Option IdentityRead)}
    (h : Traced rely (getSignedIdentityRecord rt d objectKeyHex quorum) s l x t) :
    RecordTrusted rt objectKeyHex x ∧ (ReadsNothing x → Between SameDurable s l t) := by
  rcases h.bind_inv with ⟨a, v, l₁, l₂, hread, hreturn, rfl⟩ | ⟨err, rfl, hread⟩
  · obtain ⟨rfl, rfl, rfl⟩ := hreturn.pure_inv
    have hclosed := getValidatedIdentityEnvelope_failsClosed hread
    rw [List.append_nil]
    refine ⟨fun r hr => ?_, fun hnone => hclosed.unchanged (.inl ?_)⟩
    · obtain ⟨⟨e, r'⟩, rfl, rfl⟩ := Option.map_eq_some_iff.1 (Except.ok.inj hr)
      obtain ⟨recordKey, used, hkey, hget⟩ := hclosed.validated e _ rfl
      obtain ⟨chain, hchain⟩ :=
        validateIdentityGet_trusted hget (isMultisignatureEnvelope_of_record hget)
      exact ⟨recordKey, e, used, chain, hkey, hget, hchain⟩
    · simpa [ReadsNothing] using hnone
  · exact ⟨fun e he => (by cases he),
      fun _ => (getValidatedIdentityEnvelope_failsClosed hread).unchanged (.inr ⟨err, rfl⟩)⟩

theorem getIdentityEnvelope_trusted {objectKeyHex : Text} {quorum : ℕ} {x : Py (Option Bytes)}
    (h : Runs rely (getIdentityEnvelope rt d objectKeyHex quorum) s x t) :
    EnvelopeTrusted rt objectKeyHex x := by
  obtain ⟨l, hl⟩ := h.traced
  exact (getIdentityEnvelope_failsClosed hl).1

/-- The blocks of the call leave the durable store alone; it ends as it was where the answers keep
it, and as `get_value` left it where nobody but `KadDHT` writes. -/
structure LeavesStore (rt : Runtime) (d : DhtInstance) (s : DhtState) (l : Trace) (t : DhtState) :
    Prop where
  blocks : Between SameDurable s l t
  kept : (∀ a ∈ l, SameDurable a.before a.after) → t.durable = s.durable
  cached : (∀ a ∈ l, KadAnswers rt d a.request a.before a.after) → Cached rt d s t

theorem leavesStore_of_between (h : Between SameDurable s l t) : LeavesStore rt d s l t :=
  ⟨h, h.keeps sameDurable_trans, cached_of_between h⟩

/-- **Identity reads fail closed.** Whatever the DHT and the peers answer, and whatever else happens
to the state while the read is suspended, a multisignature Identity that is returned ends a trusted
chain of its record. A read that returns nothing or raises leaves the durable store unchanged, if
nothing else changes it meanwhile; no block of such a read changes it, and what `KadDHT` caches
while it is asked is all that can. -/
theorem identityReads_fail_closed (rt : Runtime) (d : DhtInstance) (objectKeyHex : Text)
    (quorum : ℕ) (s t : DhtState) :
    (∀ x, Runs (fun _ _ _ _ => True) (getIdentityEnvelope rt d objectKeyHex quorum) s x t →
      EnvelopeTrusted rt objectKeyHex x) ∧
    (∀ x, Runs (fun _ _ _ _ => True) (getSignedIdentityRecord rt d objectKeyHex quorum) s x t →
      RecordTrusted rt objectKeyHex x) ∧
    (∀ x, Runs (fun _ s _ t => SameDurable s t) (getIdentityEnvelope rt d objectKeyHex quorum)
      s x t → ReadsNothing x → t.durable = s.durable) ∧
    (∀ x, Runs (fun _ s _ t => SameDurable s t)
      (getSignedIdentityRecord rt d objectKeyHex quorum) s x t →
      ReadsNothing x → t.durable = s.durable) ∧
    (∀ l x, Traced (fun _ _ _ _ => True) (getIdentityEnvelope rt d objectKeyHex quorum) s l x t →
      ReadsNothing x → LeavesStore rt d s l t) ∧
    ∀ l x, Traced (fun _ _ _ _ => True) (getSignedIdentityRecord rt d objectKeyHex quorum)
      s l x t → ReadsNothing x → LeavesStore rt d s l t := by
  refine ⟨fun _ => getIdentityEnvelope_trusted, fun x h => ?_, fun x h hx => ?_, fun x h hx => ?_,
    fun l x h hx => leavesStore_of_between ((getIdentityEnvelope_failsClosed h).2 hx),
    fun l x h hx => leavesStore_of_between ((getSignedIdentityRecord_failsClosed h).2 hx)⟩
  · obtain ⟨l, hl⟩ := h.traced
    exact (getSignedIdentityRecord_failsClosed hl).1
  · obtain ⟨l, hl⟩ := h.traced
    exact (@leavesStore_of_between rt d _ _ _
      ((getIdentityEnvelope_failsClosed hl).2 hx)).kept hl.answered
  · obtain ⟨l, hl⟩ := h.traced
    exact (@leavesStore_of_between rt d _ _ _
      ((getSignedIdentityRecord_failsClosed hl).2 hx)).kept hl.answered

/-- The outcome of a read is a multisignature record. -/
def isRecordResult : Py (Option IdentityRead) → Bool
  | .ok (some (.record _)) => true
  | _ => false

theorem eq_record_of_isRecordResult {x : Py (Option IdentityRead)} (h : isRecordResult x = true) :
    ∃ r, x = .ok (some (.record r)) := by
  unfold isRecordResult at h
  split at h
  · exact ⟨_, rfl⟩
  · cases h

/-- A genesis that the DHT returns to an instance with an empty store. -/
theorem sampleRead_fails_closed :
    ∃ r t, Runs (fun _ _ _ _ => True)
        (getSignedIdentityRecord Sample.runtime Sample.node (toHex Sample.identityKey) 0)
        (Sample.stateOver .empty) (.ok (some (.record r))) t ∧
      ∃ recordKey e chain, fromHex (toHex Sample.identityKey) = .ok recordKey ∧
        TrustedChain Sample.runtime recordKey chain e := by
  have hrun := runs_run (fun _ _ _ _ => True) (Sample.answers (some Sample.identityGenesis))
    (fun _ _ => trivial)
    (getSignedIdentityRecord Sample.runtime Sample.node (toHex Sample.identityKey) 0)
    (Sample.stateOver .empty)
  obtain ⟨r, hr⟩ := eq_record_of_isRecordResult (x := (run
    (Sample.answers (some Sample.identityGenesis))
    (getSignedIdentityRecord Sample.runtime Sample.node (toHex Sample.identityKey) 0)
    (Sample.stateOver .empty)).1) (by decide +kernel)
  rw [hr] at hrun
  obtain ⟨recordKey, e, used, chain, hkey, -, hchain⟩ :=
    (identityReads_fail_closed _ _ _ _ _ _).2.1 _ hrun r rfl
  exact ⟨r, _, hrun, recordKey, e, chain, hkey, hchain⟩

end DecentRegistry
