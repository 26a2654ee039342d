import DecentRegistry.Model.Dht.Provider

/-!
# Methods that leave the durable store alone

Every method of the adapter but `durableInstall`, `durableCache` and the plain `storePut` is
`Quiet`: none of its blocks changes the durable store, whatever the environment answers. The lemmas
also say what a quiet method returns. -/

namespace DecentRegistry

open Fallible PyValue Coroutine

/-- The durable store is the same. -/
def SameDurable (s t : DhtState) : Prop := t.durable = s.durable

/-- No block changes the durable store, and what is returned satisfies `Φ`. -/
abbrev Quiet {α : Type} (p : Dht α) (Φ : α → Prop) : Prop := Ensures SameDurable p Φ

variable {rt : Runtime} {d : DhtInstance} {α : Type} {Φ : α → Prop}

theorem sameDurable_refl (s : DhtState) : SameDurable s s := rfl

theorem sameDurable_trans (r s t : DhtState) (h : SameDurable r s) (h' : SameDurable s t) :
    SameDurable r t := h'.trans h

theorem quiet_reads {f : DhtState → α} : Quiet (Coro.reads f) fun _ => True :=
  .reads sameDurable_refl fun _ => trivial

theorem ensures_orOnException {G : DhtState → DhtState → Prop} {p handler : Dht α}
    (hp : Ensures G p Φ) (hh : Ensures G handler Φ) : Ensures G (orOnException p handler) Φ := by
  refine .orHandle hp fun e => ?_
  split
  · exact hh
  · exact .raise

theorem ensures_withAcceptedLock {G : DhtState → DhtState → Prop}
    (hG : ∀ s t, SameDurable s t → G s t) {p : Dht α} (hp : Ensures G p Φ) :
    Ensures G (withAcceptedLock p) Φ :=
  .bind .request fun _ _ => .andFinally hp (.modify fun _ => hG _ _ rfl)

/-! ## Reading -/

theorem durableGet_quiet (kind : RecordKind) (key : Bytes) :
    Quiet (durableGet d kind key) fun _ => True := by
  unfold durableGet
  split
  · exact .pure trivial
  · exact quiet_reads

theorem durableHistory_quiet (kind : RecordKind) (key : Bytes) :
    Quiet (durableHistory rt d kind key) fun _ => True := by
  unfold durableHistory
  split
  · exact .pure trivial
  · split
    · exact quiet_reads
    · exact .pure trivial

theorem readDhtValue_quiet (kadKey : Text) (quorum : ℕ) :
    Quiet (readDhtValue kadKey quorum) fun _ => True :=
  ensures_orOnException .request (.pure trivial)

theorem readFromPeers_quiet (objectKeyHex : Text) (peers : List Text) :
    Quiet (readFromPeers d objectKeyHex peers) fun _ => True := by
  induction peers with
  | nil => exact .pure trivial
  | cons peer rest ih =>
    unfold readFromPeers
    split
    · exact ih
    · refine .bind (ensures_orOnException .request (.pure trivial)) fun envelope _ => ?_
      split
      · exact .pure trivial
      · exact ih

theorem readRemoteIdentityEnvelope_quiet (objectKeyHex : Text) :
    Quiet (readRemoteIdentityEnvelope d objectKeyHex) fun _ => True := by
  unfold readRemoteIdentityEnvelope
  refine .bind (.lift fun _ _ => trivial) fun recordKey _ =>
    .bind (.lift fun _ _ => trivial) fun _ _ => ?_
  split
  · exact ensures_orOnException .request (.pure trivial)
  · exact .bind quiet_reads fun peers _ => readFromPeers_quiet _ peers

/-- The SignedUpdate of an envelope has the given hash. -/
def HasStateHash (rt : Runtime) (e stateHash : Bytes) : Prop :=
  ∃ u, envelopeSignedUpdateBytes rt e = .ok u ∧ rt.sha256 u = stateHash

/-- Whatever the peers answer, what is returned has the state hash that was asked for. -/
theorem readHistoryFromPeers_quiet (kadKey stateHash : Bytes) (peers : List Text) :
    Quiet (readHistoryFromPeers rt d kadKey stateHash peers)
      fun found => ∀ e ∈ found, HasStateHash rt e stateHash := by
  induction peers with
  | nil => exact .pure (by simp)
  | cons peer rest ih =>
    unfold readHistoryFromPeers
    split
    · exact ih
    · refine .bind (ensures_orOnException .request (.pure trivial)) fun envelope _ => ?_
      split
      · exact ih
      · rename_i envelope
        split
        · exact ih
        · rename_i signedUpdate hsigned
          by_cases hhash : rt.sha256 signedUpdate = stateHash
          · rw [if_pos hhash]
            refine .pure fun e he => ?_
            obtain rfl := Option.some.inj he
            exact ⟨signedUpdate, hsigned, hhash⟩
          · rw [if_neg hhash]
            exact ih

theorem readRemoteIdentityEnvelopeByHash_quiet (objectKeyHex : Text) (stateHash : Bytes) :
    Quiet (readRemoteIdentityEnvelopeByHash rt d objectKeyHex stateHash)
      fun found => ∀ e ∈ found, HasStateHash rt e stateHash := by
  refine .bind quiet_reads fun peers _ => ?_
  split
  · exact .pure (by simp)
  · exact .bind (.lift fun _ _ => trivial) fun kadKey _ => readHistoryFromPeers_quiet _ _ peers

theorem walkPredecessors_quiet (objectKeyHex : Text) (remaining : ℕ)
    (chain seen : List Bytes) (total : ℕ) (envelope : Bytes) :
    Quiet (walkPredecessors rt d objectKeyHex remaining chain seen total envelope)
      fun _ => True := by
  induction remaining generalizing chain seen total envelope with
  | zero => exact .pure trivial
  | succ remaining ih =>
    unfold walkPredecessors
    split
    · exact .pure trivial
    · split
      · exact .pure trivial
      · split
        · exact .pure trivial
        · split
          · exact .pure trivial
          · split
            · exact .pure trivial
            · refine .bind (readRemoteIdentityEnvelopeByHash_quiet _ _) fun predecessor _ => ?_
              split
              · exact .pure trivial
              · exact ih _ _ _ _

theorem readRemoteIdentityPredecessorChain_quiet (objectKeyHex : Text) (envelope : Bytes) :
    Quiet (readRemoteIdentityPredecessorChain rt d objectKeyHex envelope) fun _ => True := by
  refine .orHandle (walkPredecessors_quiet _ _ _ _ _ _) fun e => ?_
  split
  · exact .pure trivial
  · exact .raise

theorem readIdentityForGet_quiet (objectKeyHex : Text) (quorum : ℕ) :
    Quiet (readIdentityForGet d objectKeyHex quorum) fun _ => True := by
  refine .bind (readDhtValue_quiet _ _) fun value _ => ?_
  split
  · exact .pure trivial
  · refine .bind quiet_reads fun peers _ => ?_
    split
    · exact .pure trivial
    · exact readRemoteIdentityEnvelope_quiet _

/-- What the validated read goes on with was validated. -/
theorem validateCurrentIdentity_quiet (objectKeyHex : Text) (recordKey current : Bytes)
    (chain : Option (List Bytes)) :
    Quiet (validateCurrentIdentity rt d objectKeyHex recordKey current chain) fun x =>
      ∀ result used, x = some (result, used) →
        validateIdentityGet rt recordKey current used = .ok result := by
  unfold validateCurrentIdentity
  split
  · rename_i result hresult
    refine .pure fun _ _ hx => ?_
    obtain ⟨rfl, rfl⟩ := Prod.mk.inj (Option.some.inj hx)
    exact hresult
  · refine .bind (readRemoteIdentityPredecessorChain_quiet _ _) fun walked _ => ?_
    split
    · split
      · exact .raise
      · exact .pure (by simp)
    · split
      · rename_i result hresult
        refine .pure fun _ _ hx => ?_
        obtain ⟨rfl, rfl⟩ := Prod.mk.inj (Option.some.inj hx)
        exact hresult
      · exact .raise

theorem readIdentityForPut_quiet (objectKeyHex : Text) (condition : Option PublicationCondition) :
    Quiet (readIdentityForPut d objectKeyHex condition) fun _ => True := by
  unfold readIdentityForPut
  split
  · exact ensures_orOnException .request .raise
  · refine .bind (readDhtValue_quiet _ _) fun value _ => ?_
    split
    · exact .pure trivial
    · refine .bind quiet_reads fun peers _ => ?_
      split
      · exact .pure trivial
      · exact readRemoteIdentityEnvelope_quiet _

theorem predecessorChainForPut_quiet (objectKeyHex : Text) (recordKey : Bytes)
    (rawExisting : Option Bytes) :
    Quiet (predecessorChainForPut rt d objectKeyHex recordKey rawExisting) fun _ => True := by
  refine .bind (durableHistory_quiet _ _) fun history _ => ?_
  split
  · exact .pure trivial
  · exact .pure trivial
  · refine .bind (readRemoteIdentityPredecessorChain_quiet _ _) fun walked _ => ?_
    split
    · exact .pure trivial
    · split
      · exact .raise
      · exact .pure trivial

theorem checkNotExpired_quiet (condition : Option PublicationCondition) :
    Quiet (checkNotExpired condition) fun _ => True := by
  unfold checkNotExpired
  split
  · exact .pure trivial
  · refine .bind quiet_reads fun now _ => ?_
    split
    · exact .raise
    · exact .pure trivial

theorem publishDhtValue_quiet (kadKey : Text) (value : Bytes)
    (context : Option IdentityWriteContext) :
    Quiet (publishDhtValue kadKey value context) fun _ => True := .request

/-! ## The hooks -/

theorem durableIdentityEnvelopeByHash_quiet (objectKeyHex : Text) (stateHash : Bytes) :
    Quiet (durableIdentityEnvelopeByHash rt d objectKeyHex stateHash) fun _ => True := by
  refine .bind (.lift fun _ _ => trivial) fun _ _ => .bind (.lift fun _ _ => trivial) fun _ _ => ?_
  refine .bind (durableGet_quiet _ _) fun value _ => ?_
  split
  · exact .pure trivial
  · refine .bind (durableHistory_quiet _ _) fun history _ => ?_
    dsimp only
    split
    · exact .pure trivial
    · exact .pure trivial

theorem serveAccepted_quiet (key envelope : Bytes) :
    Quiet (serveAccepted key envelope) fun _ => True := by
  refine .bind quiet_reads fun cached _ => ?_
  split
  · exact .pure trivial
  · exact .bind (.modify fun _ => rfl) fun _ _ => quiet_reads

theorem valueStoreGet_quiet (key : Bytes) : Quiet (valueStoreGet rt d key) fun _ => True := by
  unfold valueStoreGet
  split
  · refine .bind (durableIdentityEnvelopeByHash_quiet _ _) fun value _ => ?_
    split
    · exact .pure trivial
    · exact serveAccepted_quiet _ _
  · split
    · exact quiet_reads
    · exact quiet_reads
    · refine .bind (durableGet_quiet _ _) fun value _ => ?_
      split
      · exact quiet_reads
      · refine .bind (durableHistory_quiet _ _) fun history _ => ?_
        split
        · exact .pure trivial
        · exact serveAccepted_quiet _ _

/-- The result is one of the validator, for some existing envelope. -/
def AcceptedResult.Validated (rt : Runtime) (kind : RecordKind) (recordKey envelope : Bytes) :
    AcceptedResult → Prop
  | .identity r => kind = .identity ∧ ∃ existing chain,
      validateIdentityOverwrite rt recordKey envelope existing chain = .ok r
  | .provider r => kind = .provider ∧ ∃ existing,
      validateProviderOverwrite rt recordKey envelope existing = .ok r

theorem requireServableHistory_quiet (envelope : Bytes) (message : String) :
    Quiet (requireServableHistory rt d envelope message) fun _ => True := by
  refine .bind quiet_reads fun serverMode _ => ?_
  split
  · exact .bind (.lift fun _ _ => trivial) fun _ _ => .lift fun _ _ => trivial
  · exact .pure trivial

theorem validateOverExisting_quiet (pending : Option IdentityWriteContext) (kind : RecordKind)
    (recordKey envelope : Bytes) (rawExisting : Option Bytes) :
    Quiet (validateOverExisting rt d pending kind recordKey envelope rawExisting)
      (AcceptedResult.Validated rt kind recordKey envelope) := by
  unfold validateOverExisting
  split
  · split
    · exact .bind (.lift fun _ h => h) fun r hr => .pure ⟨rfl, _, _, hr⟩
    · exact .bind (durableHistory_quiet _ _) fun history _ =>
        .bind (.lift fun _ h => h) fun r hr => .pure ⟨rfl, _, _, hr⟩
  · exact .bind (.lift fun _ h => h) fun r hr => .pure ⟨rfl, _, hr⟩

/-- What `_validate_dht_record` returns was validated. -/
theorem validateDhtRecord_quiet (pending : Option IdentityWriteContext) (kadKey : Text)
    (envelope : Bytes) :
    Quiet (validateDhtRecord rt d pending kadKey envelope) fun x => ∀ kind recordKey,
      parseKey kadKey = .ok (kind, recordKey) →
        ∀ result ∈ x, result.Validated rt kind recordKey envelope := by
  refine .bind (.lift fun _ h => h) ?_
  rintro ⟨kind, recordKey⟩ hparse
  dsimp only
  have hrest : Quiet (do
      let rawDht ← valueStoreGet rt d (utf8 kadKey)
      let rawLocal ← durableGet d kind recordKey
      let rawExisting ← existingForRecord rt kind envelope rawDht rawLocal
      if rawExisting = some envelope then return none
      return some (← validateOverExisting rt d pending kind recordKey envelope rawExisting))
      fun x => ∀ kind recordKey, parseKey kadKey = .ok (kind, recordKey) →
        ∀ result ∈ x, result.Validated rt kind recordKey envelope := by
    refine .bind (valueStoreGet_quiet _) fun rawDht _ => .bind (durableGet_quiet _ _) fun _ _ =>
      .bind (.lift fun _ _ => trivial) fun rawExisting _ => ?_
    split
    · exact .pure (by simp)
    · refine .bind (validateOverExisting_quiet _ _ _ _ _) fun result hresult => .pure ?_
      rintro kind' recordKey' hparse' _ ⟨⟩
      obtain ⟨rfl, rfl⟩ := Prod.mk.inj (Except.ok.inj (hparse.symm.trans hparse'))
      exact hresult
  split
  · exact .bind (requireServableHistory_quiet _ _) fun _ _ => hrest
  · exact hrest

/-- What `_prepare_durable_acceptance` hands on was validated. -/
theorem prepareDurableAcceptance_quiet (localWrite : Bool) (pending : Option IdentityWriteContext)
    (key value : Bytes) :
    Quiet (prepareDurableAcceptance rt d localWrite pending key value) fun x =>
      ∀ a ∈ x, a.result.Validated rt a.kind a.recordKey a.envelope := by
  unfold prepareDurableAcceptance
  split
  · exact .pure (by simp)
  · split
    · exact .pure (by simp)
    · rename_i kadKey kind recordKey hparse
      simp only [bind_eq_ok, pure_eq_ok, Prod.mk.injEq] at hparse
      obtain ⟨_, -, _, hparse, rfl, rfl⟩ := hparse
      refine .bind (validateDhtRecord_quiet _ _ _) fun x hx => ?_
      split
      · exact .pure (by simp)
      · refine .pure ?_
        rintro _ ⟨⟩
        exact hx _ _ hparse _ rfl

end DecentRegistry
