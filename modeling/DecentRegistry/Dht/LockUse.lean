import DecentRegistry.Foundations.Sections
import DecentRegistry.Model.Dht.Calls

/-!
# Who uses the accepted-state lock

The methods take the accepted-state lock in `withAcceptedLock` and nowhere else: every part of them
is `Lockfree`. So a call asks for the lock once at most, and what it does under the lock is one
critical section (`outside_withAcceptedLock`). `confirm_identity_owner_key_rotation`,
`get_signed_provider_record` and the values put by peers do not ask for it. -/

namespace DecentRegistry

open Fallible PyValue Coroutine Lock

variable {rt : Runtime} {d : DhtInstance} {α β : Type}

/-- `_accepted_lock`. -/
def acceptedLock : Lock DhtState Request := ⟨fun s => s.acceptedLock = true, .acceptedLock⟩

/-- The coroutine does not touch the lock. -/
abbrev Unlocked (p : Dht α) : Prop := acceptedLock.Lockfree p

/-- The lock is given when it is free, and the world outside does not release it. -/
theorem acceptedLock_respects {calls : DhtState → DhtCall → Prop}
    {allowed : (q : Request) → DhtState → Py q.Answer → Prop} :
    acceptedLock.Respects (dhtSchedule rt d calls allowed) := by
  refine ⟨?_, ?_, fun s t h => by simp only [acceptedLock, h.2]⟩
  · rintro q s r t ⟨-, h⟩ ⟨rfl, hr⟩
    cases r with
    | error e => cases hr
    | ok a => exact ⟨by simp [acceptedLock, h.1], by simp [acceptedLock, h.2]⟩
  · rintro q s r t ⟨-, h⟩ hgrants
    have hdrifts : Drifts s t := by
      unfold Answered at h
      split at h
      · exact absurd ⟨rfl, rfl⟩ hgrants
      · exact h
    simp only [acceptedLock, hdrifts.2]

/-! ## Sections -/

section Section

variable {E : (q : Request) → Py q.Answer → DhtState → Prop} {R : DhtState → DhtState → Prop}
  {Ψ : Py Unit → Prop} {Φ : DhtState → Py Unit → DhtState → Prop}

/-- What is relied on under the lock. -/
abbrev underLock (E : (q : Request) → Py q.Answer → DhtState → Prop)
    (R : DhtState → DhtState → Prop) : Contract DhtState Request Request.Answer PyError :=
  sectionContract acceptedLock E R

/-- The state in which the lock is free again. -/
def DhtState.released (s : DhtState) : DhtState := { s with acceptedLock := false }

/-- **What is done under the lock** is a section. -/
theorem outside_withAcceptedLock {body : Dht β} (hbody : Unlocked body)
    (error : ∀ e, Ψ (.error e))
    (h : ∀ s, wp (underLock E R) body (fun x t => Φ s ((fun _ => ()) <$> x) t.released) s)
    (s : DhtState) :
    acceptedLock.Outside E R Ψ Φ (withAcceptedLock body >>= fun _ => pure ()) s :=
  outside_withLock (fun _ => Bool.false_ne_true) hbody error h s

end Section

/-! ## Reading -/

theorem unlocked_orOnException {p handler : Dht α} (hp : Unlocked p) (hh : Unlocked handler) :
    Unlocked (orOnException p handler) := by
  refine .orHandle hp fun e => ?_
  split
  · exact hh
  · exact .raise

theorem durableGet_unlocked (kind : RecordKind) (key : Bytes) :
    Unlocked (durableGet d kind key) := by
  unfold durableGet
  split
  · exact .pure
  · exact .reads

theorem durableHistory_unlocked (kind : RecordKind) (key : Bytes) :
    Unlocked (durableHistory rt d kind key) := by
  unfold durableHistory
  split
  · exact .pure
  · split
    · exact .reads
    · exact .pure

theorem readDhtValue_unlocked (kadKey : Text) (quorum : ℕ) :
    Unlocked (readDhtValue kadKey quorum) :=
  unlocked_orOnException (.request (by simp [acceptedLock])) .pure

theorem readFromPeers_unlocked (objectKeyHex : Text) (peers : List Text) :
    Unlocked (readFromPeers d objectKeyHex peers) := by
  induction peers with
  | nil => exact .pure
  | cons peer rest ih =>
    unfold readFromPeers
    split
    · exact ih
    · refine .bind (unlocked_orOnException (.request (by simp [acceptedLock])) .pure)
        fun envelope => ?_
      split
      · exact .pure
      · exact ih

theorem readRemoteIdentityEnvelope_unlocked (objectKeyHex : Text) :
    Unlocked (readRemoteIdentityEnvelope d objectKeyHex) := by
  refine .bind .lift fun recordKey => .bind .lift fun _ => ?_
  split
  · exact unlocked_orOnException (.request (by simp [acceptedLock])) .pure
  · exact .bind .reads fun peers => readFromPeers_unlocked _ peers

theorem readHistoryFromPeers_unlocked (kadKey stateHash : Bytes) (peers : List Text) :
    Unlocked (readHistoryFromPeers rt d kadKey stateHash peers) := by
  induction peers with
  | nil => exact .pure
  | cons peer rest ih =>
    unfold readHistoryFromPeers
    split
    · exact ih
    · refine .bind (unlocked_orOnException (.request (by simp [acceptedLock])) .pure)
        fun envelope => ?_
      split
      · exact ih
      · split
        · exact ih
        · split
          · exact .pure
          · exact ih

theorem readRemoteIdentityEnvelopeByHash_unlocked (objectKeyHex : Text) (stateHash : Bytes) :
    Unlocked (readRemoteIdentityEnvelopeByHash rt d objectKeyHex stateHash) := by
  refine .bind .reads fun peers => ?_
  split
  · exact .pure
  · exact .bind .lift fun kadKey => readHistoryFromPeers_unlocked _ _ peers

theorem walkPredecessors_unlocked (objectKeyHex : Text) (remaining : ℕ) (chain seen : List Bytes)
    (total : ℕ) (envelope : Bytes) :
    Unlocked (walkPredecessors rt d objectKeyHex remaining chain seen total envelope) := by
  induction remaining generalizing chain seen total envelope with
  | zero => exact .pure
  | succ remaining ih =>
    unfold walkPredecessors
    split
    · exact .pure
    · split
      · exact .pure
      · split
        · exact .pure
        · split
          · exact .pure
          · split
            · exact .pure
            · refine .bind (readRemoteIdentityEnvelopeByHash_unlocked _ _) fun predecessor => ?_
              split
              · exact .pure
              · exact ih _ _ _ _

theorem readRemoteIdentityPredecessorChain_unlocked (objectKeyHex : Text) (envelope : Bytes) :
    Unlocked (readRemoteIdentityPredecessorChain rt d objectKeyHex envelope) := by
  refine .orHandle (walkPredecessors_unlocked _ _ _ _ _ _) fun e => ?_
  split
  · exact .pure
  · exact .raise

/-! ## Writing -/

theorem storePut_unlocked (kind : RecordKind) (key value : Bytes) :
    Unlocked (storePut kind key value) := .modify fun _ => Iff.rfl

theorem storePutIfNewer_unlocked (w : AcceptedWrite) : Unlocked (storePutIfNewer rt w) := by
  refine .transact fun s => ?_
  split <;> rfl

theorem installAccepted_unlocked (backend : StorageBackend) (kind : RecordKind) (key value : Bytes)
    (result : ResultAttributes) (history : Option (List Bytes)) :
    Unlocked (installAccepted rt d backend kind key value result history) := by
  refine .bind (durableGet_unlocked _ _) fun current => ?_
  split
  · exact .pure
  · refine .bind .lift fun recorded => ?_
    dsimp only
    split
    · exact storePut_unlocked _ _ _
    · refine .bind (storePutIfNewer_unlocked _) fun accepted => ?_
      split
      · refine .bind (durableGet_unlocked _ _) fun current' => ?_
        split
        · exact .pure
        · exact .raise
      · exact .pure

theorem durableInstall_unlocked (kind : RecordKind) (key value : Bytes) (result : ResultAttributes)
    (history : Option (List Bytes)) :
    Unlocked (durableInstall rt d kind key value result history) := by
  unfold durableInstall
  refine .when .lift fun _ => ?_
  split
  · exact .pure
  · exact installAccepted_unlocked _ _ _ _ _ _

theorem durableCache_unlocked (kind : RecordKind) (key value : Bytes) (result : ResultAttributes)
    (history : Option (List Bytes)) :
    Unlocked (durableCache rt d kind key value result history) := by
  unfold durableCache
  split
  · exact .pure
  · refine .bind .lift fun recorded => ?_
    dsimp only
    split
    · exact storePut_unlocked _ _ _
    · exact .bind (storePutIfNewer_unlocked _) fun _ => .pure

/-! ## Identity calls -/

theorem readIdentityForGet_unlocked (objectKeyHex : Text) (quorum : ℕ) :
    Unlocked (readIdentityForGet d objectKeyHex quorum) := by
  refine .bind (readDhtValue_unlocked _ _) fun value => ?_
  split
  · exact .pure
  · refine .bind .reads fun peers => ?_
    split
    · exact .pure
    · exact readRemoteIdentityEnvelope_unlocked _

theorem validateCurrentIdentity_unlocked (objectKeyHex : Text) (recordKey current : Bytes)
    (chain : Option (List Bytes)) :
    Unlocked (validateCurrentIdentity rt d objectKeyHex recordKey current chain) := by
  unfold validateCurrentIdentity
  split
  · exact .pure
  · refine .bind (readRemoteIdentityPredecessorChain_unlocked _ _) fun walked => ?_
    split
    · split
      · exact .raise
      · exact .pure
    · split
      · exact .pure
      · exact .raise

theorem readIdentityForPut_unlocked (objectKeyHex : Text)
    (condition : Option PublicationCondition) :
    Unlocked (readIdentityForPut d objectKeyHex condition) := by
  unfold readIdentityForPut
  split
  · exact unlocked_orOnException (.request (by simp [acceptedLock])) .raise
  · refine .bind (readDhtValue_unlocked _ _) fun value => ?_
    split
    · exact .pure
    · refine .bind .reads fun peers => ?_
      split
      · exact .pure
      · exact readRemoteIdentityEnvelope_unlocked _

theorem predecessorChainForPut_unlocked (objectKeyHex : Text) (recordKey : Bytes)
    (rawExisting : Option Bytes) :
    Unlocked (predecessorChainForPut rt d objectKeyHex recordKey rawExisting) := by
  refine .bind (durableHistory_unlocked _ _) fun history => ?_
  split
  · exact .pure
  · exact .pure
  · refine .bind (readRemoteIdentityPredecessorChain_unlocked _ _) fun walked => ?_
    split
    · exact .pure
    · split
      · exact .raise
      · exact .pure

theorem checkNotExpired_unlocked (condition : Option PublicationCondition) :
    Unlocked (checkNotExpired condition) := by
  unfold checkNotExpired
  split
  · exact .pure
  · refine .bind .reads fun now => ?_
    split
    · exact .raise
    · exact .pure

theorem publishDhtValue_unlocked (kadKey : Text) (value : Bytes)
    (context : Option IdentityWriteContext) : Unlocked (publishDhtValue kadKey value context) :=
  .request (by simp [acceptedLock])

theorem requireServableHistory_unlocked (envelope : Bytes) (message : String) :
    Unlocked (requireServableHistory rt d envelope message) := by
  refine .bind .reads fun serverMode => ?_
  split
  · exact .bind .lift fun _ => .lift
  · exact .pure

theorem putLegacyIdentity_unlocked (objectKeyHex : Text) (recordKey envelope : Bytes)
    (rawExisting : Option Bytes) (condition : Option PublicationCondition) :
    Unlocked (putLegacyIdentity rt d objectKeyHex recordKey envelope rawExisting condition) :=
  .bind .lift fun _ => .bind (checkNotExpired_unlocked _) fun _ =>
    .bind (publishDhtValue_unlocked _ _ _) fun _ => durableInstall_unlocked _ _ _ _ _

theorem putAcceptedIdentity_unlocked (objectKeyHex : Text) (recordKey envelope : Bytes)
    (rawExisting : Option Bytes) (condition : Option PublicationCondition) :
    Unlocked (putAcceptedIdentity rt d objectKeyHex recordKey envelope rawExisting condition) := by
  refine .bind (predecessorChainForPut_unlocked _ _ _) fun chain => .bind .lift fun result => ?_
  refine .when .lift fun _ => .bind (checkNotExpired_unlocked _) fun _ => ?_
  split
  · refine .bind (publishDhtValue_unlocked _ _ _) fun _ => ?_
    split
    · exact durableInstall_unlocked _ _ _ _ _
    · exact .pure
  · exact .when (durableInstall_unlocked _ _ _ _ _) fun _ => publishDhtValue_unlocked _ _ _

/-- The part of `_put_signed_identity_record` under the lock. -/
def putUnderLock (rt : Runtime) (d : DhtInstance) (objectKeyHex : Text)
    (recordKey envelopeCbor : Bytes)
    (condition : Option PublicationCondition) : Dht Unit := do
  let rawDht ← readIdentityForPut d objectKeyHex condition
  let rawLocal ← durableGet d .identity recordKey
  let rawExisting ← selectIdentityForPut rt condition rawDht rawLocal
  checkExpectedState rt condition rawExisting
  requireServableHistory rt d envelopeCbor
    "durable Identity history is required for post-genesis writes on a Registry server"
  if !(isMultisignatureEnvelope rt envelopeCbor || isMultisignatureValue rt rawDht ||
      isMultisignatureValue rt rawLocal)
  then putLegacyIdentity rt d objectKeyHex recordKey envelopeCbor rawExisting condition
  else putAcceptedIdentity rt d objectKeyHex recordKey envelopeCbor rawExisting condition

theorem putIdentityRecord_eq (objectKeyHex : Text) (envelope : Bytes)
    (condition : Option PublicationCondition) :
    putIdentityRecord rt d objectKeyHex envelope condition = (do
      let recordKey ← fromHex objectKeyHex
      withAcceptedLock (putUnderLock rt d objectKeyHex recordKey envelope condition)) := rfl

theorem putUnderLock_unlocked (objectKeyHex : Text) (recordKey envelope : Bytes)
    (condition : Option PublicationCondition) :
    Unlocked (putUnderLock rt d objectKeyHex recordKey envelope condition) := by
  refine .bind (readIdentityForPut_unlocked _ _) fun rawDht =>
    .bind (durableGet_unlocked _ _) fun rawLocal => .bind .lift fun rawExisting =>
    .bind .lift fun _ => .bind (requireServableHistory_unlocked _ _) fun _ => ?_
  split
  · exact putLegacyIdentity_unlocked _ _ _ _ _
  · exact putAcceptedIdentity_unlocked _ _ _ _ _

theorem getValidatedIdentityEnvelopeUnlocked_unlocked (objectKeyHex : Text) (quorum : ℕ) :
    Unlocked (getValidatedIdentityEnvelopeUnlocked rt d objectKeyHex quorum) := by
  refine .bind .lift fun recordKey => .bind (readIdentityForGet_unlocked _ _) fun rawDht =>
    .bind (durableGet_unlocked _ _) fun rawLocal => ?_
  split
  · exact .pure
  · exact .pure
  · refine .bind (durableHistory_unlocked _ _) fun history =>
      .bind (validateCurrentIdentity_unlocked _ _ _ _) fun validated => ?_
    split
    · exact .pure
    · exact .when (durableCache_unlocked _ _ _ _ _) fun _ => .pure

theorem confirmIdentityOwnerKeyRotation_unlocked (ownerNameHex : Text) (expected : Bytes) :
    Unlocked (confirmIdentityOwnerKeyRotation rt d ownerNameHex expected) := by
  refine .bind .lift fun ownerName => .bind (readRemoteIdentityEnvelope_unlocked _) fun remote => ?_
  split
  · exact .pure
  · refine .bind (durableHistory_unlocked _ _) fun history =>
      .bind (durableGet_unlocked _ _) fun localValue => ?_
    split
    · exact .pure
    · split
      · split
        · exact .bind (durableCache_unlocked _ _ _ _ _) fun _ => .pure
        · exact .pure
      · exact .pure

/-! ## Provider calls -/

theorem putLegacyProvider_unlocked (objectHash : Text) (recordKey envelope : Bytes)
    (rawDht rawLocal : Option Bytes) :
    Unlocked (putLegacyProvider rt d objectHash recordKey envelope rawDht rawLocal) := by
  unfold putLegacyProvider
  refine .when .lift fun _ => .bind .lift fun result => .bind .lift fun _ =>
    .bind (publishDhtValue_unlocked _ _ _) fun _ => ?_
  split
  · split
    · exact durableInstall_unlocked _ _ _ _ _
    · exact storePut_unlocked _ _ _
  · exact .pure

theorem putAcceptedProvider_unlocked (objectHash : Text) (recordKey envelope : Bytes)
    (rawDht rawLocal : Option Bytes) :
    Unlocked (putAcceptedProvider rt d objectHash recordKey envelope rawDht rawLocal) := by
  refine .bind .lift fun rawExisting => .bind .lift fun result => ?_
  split
  · refine .bind .lift fun existing => .bind (durableHistory_unlocked _ _) fun history => ?_
    refine .when (.bind (durableGet_unlocked _ _) fun _ => .lift) fun _ => ?_
    exact .bind (durableInstall_unlocked _ _ _ _ _) fun _ => publishDhtValue_unlocked _ _ _
  · exact .when (durableInstall_unlocked _ _ _ _ _) fun _ => publishDhtValue_unlocked _ _ _

/-- The part of `put_signed_provider_record` under the lock. -/
def putProviderUnderLock (rt : Runtime) (d : DhtInstance) (objectHash : Text)
    (recordKey envelopeCbor : Bytes) : Dht Unit := do
  let rawDht ← readDhtValue (kadKey objectHash .provider) 0
  let rawLocal ← durableGet d .provider recordKey
  if usesAcceptedState rt envelopeCbor rawDht rawLocal then
    putAcceptedProvider rt d objectHash recordKey envelopeCbor rawDht rawLocal
  else putLegacyProvider rt d objectHash recordKey envelopeCbor rawDht rawLocal

theorem putProviderUnderLock_unlocked (objectHash : Text) (recordKey envelope : Bytes) :
    Unlocked (putProviderUnderLock rt d objectHash recordKey envelope) := by
  refine .bind (readDhtValue_unlocked _ _) fun rawDht =>
    .bind (durableGet_unlocked _ _) fun rawLocal => ?_
  split
  · exact putAcceptedProvider_unlocked _ _ _ _ _
  · exact putLegacyProvider_unlocked _ _ _ _ _

theorem getSignedProviderRecord_unlocked (objectHash : Text) (quorum : ℕ) :
    Unlocked (getSignedProviderRecord rt d objectHash quorum) := by
  refine .bind .lift fun recordKey => .bind (readDhtValue_unlocked _ _) fun rawDht =>
    .bind (durableGet_unlocked _ _) fun rawLocal => .bind .lift fun rawCurrent => ?_
  split
  · exact .pure
  · refine .bind (durableHistory_unlocked _ _) fun history => ?_
    split
    · exact .pure
    · exact .when (durableCache_unlocked _ _ _ _ _) fun _ => .pure

/-! ## Values put by peers -/

theorem serveAccepted_unlocked (key envelope : Bytes) : Unlocked (serveAccepted key envelope) := by
  refine .bind .reads fun cached => ?_
  split
  · exact .pure
  · exact .bind (.modify fun _ => Iff.rfl) fun _ => .reads

theorem durableIdentityEnvelopeByHash_unlocked (objectKeyHex : Text) (stateHash : Bytes) :
    Unlocked (durableIdentityEnvelopeByHash rt d objectKeyHex stateHash) := by
  refine .bind .lift fun _ => .bind .lift fun _ => .bind (durableGet_unlocked _ _) fun value => ?_
  split
  · exact .pure
  · refine .bind (durableHistory_unlocked _ _) fun history => ?_
    dsimp only
    split <;> exact .pure

theorem valueStoreGet_unlocked (key : Bytes) : Unlocked (valueStoreGet rt d key) := by
  unfold valueStoreGet
  split
  · refine .bind (durableIdentityEnvelopeByHash_unlocked _ _) fun value => ?_
    split
    · exact .pure
    · exact serveAccepted_unlocked _ _
  · split
    · exact .reads
    · exact .reads
    · refine .bind (durableGet_unlocked _ _) fun value => ?_
      split
      · exact .reads
      · refine .bind (durableHistory_unlocked _ _) fun history => ?_
        split
        · exact .pure
        · exact serveAccepted_unlocked _ _

theorem validateOverExisting_unlocked (pending : Option IdentityWriteContext) (kind : RecordKind)
    (recordKey envelope : Bytes) (rawExisting : Option Bytes) :
    Unlocked (validateOverExisting rt d pending kind recordKey envelope rawExisting) := by
  unfold validateOverExisting
  split
  · split
    · exact .bind .lift fun _ => .pure
    · exact .bind (durableHistory_unlocked _ _) fun _ => .bind .lift fun _ => .pure
  · exact .bind .lift fun _ => .pure

theorem validateDhtRecord_unlocked (pending : Option IdentityWriteContext) (kadKey : Text)
    (envelope : Bytes) : Unlocked (validateDhtRecord rt d pending kadKey envelope) := by
  refine .bind .lift fun parsed => ?_
  dsimp only
  refine .when (requireServableHistory_unlocked _ _) fun _ => ?_
  refine .bind (valueStoreGet_unlocked _) fun rawDht =>
    .bind (durableGet_unlocked _ _) fun rawLocal =>
    .bind .lift fun rawExisting => ?_
  split
  · exact .pure
  · exact .bind (validateOverExisting_unlocked _ _ _ _ _) fun _ => .pure

theorem prepareDurableAcceptance_unlocked (localWrite : Bool)
    (pending : Option IdentityWriteContext)
    (key value : Bytes) :
    Unlocked (prepareDurableAcceptance rt d localWrite pending key value) := by
  unfold prepareDurableAcceptance
  split
  · exact .pure
  · split
    · exact .pure
    · refine .bind (validateDhtRecord_unlocked _ _ _) fun x => ?_
      split <;> exact .pure

theorem commitDurableAcceptance_unlocked (accepted : Option PreparedAcceptance) :
    Unlocked (commitDurableAcceptance rt d accepted) := by
  unfold commitDurableAcceptance
  split
  · exact .pure
  · split
    · exact .pure
    · refine .bind (durableGet_unlocked _ _) fun current => ?_
      split
      · exact .pure
      · split
        · exact .bind .lift fun prior => .bind (durableHistory_unlocked _ _) fun history =>
            durableInstall_unlocked _ _ _ _ _
        · split
          · exact durableInstall_unlocked _ _ _ _ _
          · exact storePut_unlocked _ _ _

theorem inboundPut_unlocked (key value : Bytes) : Unlocked (inboundPut rt d key value) :=
  .bind (prepareDurableAcceptance_unlocked _ _ _ _) fun _ =>
    .bind (.modify fun _ => Iff.rfl) fun _ => commitDurableAcceptance_unlocked _

end DecentRegistry
