import DecentRegistry.Foundations.Requests
import DecentRegistry.Model.Dht.Provider

/-!
# What the methods of an instance ask

Reading and writing the durable store asks nothing of the outside; the remote reads of an Identity
ask its configured peers, and never the DHT (`OffDht`); every publication and read is on one DHT key
(`OnDhtKey`).
-/

namespace DecentRegistry

open Fallible PyValue Coroutine

variable {rt : Runtime} {d : DhtInstance} {α : Type} {P : Request → Prop}

/-- The request is on the DHT key `k`, if it is one to the DHT. -/
def OnDhtKey (k : Text) : Request → Prop
  | .getValue k' _ | .putValue k' _ _ => k' = k
  | _ => True

/-- The request is not one to the DHT. -/
def OffDht : Request → Prop
  | .getValue _ _ | .putValue _ _ _ => False
  | _ => True

theorem OffDht.onDhtKey (k : Text) : ∀ q, OffDht q → OnDhtKey k q
  | .getValue _ _, h | .putValue _ _ _, h => h.elim
  | .acceptedLock, _ | .readerEnvelope _, _ | .peerEnvelope _ _, _ | .peerHistory _ _, _ => trivial

theorem asks_orOnException {p handler : Dht α} (hp : Asks P p) (hh : Asks P handler) :
    Asks P (orOnException p handler) := by
  refine .orHandle hp fun e => ?_
  split
  · exact hh
  · exact .raise

theorem asks_withAcceptedLock {p : Dht α} (hlock : P .acceptedLock) (hp : Asks P p) :
    Asks P (withAcceptedLock p) :=
  .bind (.request hlock) fun _ => .andFinally hp .modify

/-! ## The durable store -/

theorem asks_durableGet (kind : RecordKind) (key : Bytes) : Asks P (durableGet d kind key) := by
  unfold durableGet
  split
  · exact .pure
  · exact .reads

theorem asks_durableHistory (kind : RecordKind) (key : Bytes) :
    Asks P (durableHistory rt d kind key) := by
  unfold durableHistory
  split
  · exact .pure
  · split
    · exact .reads
    · exact .pure

theorem asks_installAccepted (backend : StorageBackend) (kind : RecordKind) (key value : Bytes)
    (result : ResultAttributes) (history : Option (List Bytes)) :
    Asks P (installAccepted rt d backend kind key value result history) := by
  refine .bind (asks_durableGet _ _) fun stored => ?_
  split
  · exact .pure
  · refine .bind .lift fun ⟨seq, stateHash⟩ => ?_
    dsimp only
    split
    · exact .modify
    · refine .bind .transact fun written => ?_
      split
      · refine .bind (asks_durableGet _ _) fun stored => ?_
        split
        · exact .pure
        · exact .raise
      · exact .pure

theorem asks_durableInstall (kind : RecordKind) (key value : Bytes) (result : ResultAttributes)
    (history : Option (List Bytes)) :
    Asks P (durableInstall rt d kind key value result history) := by
  unfold durableInstall
  refine .when .lift fun _ => ?_
  split
  · exact .pure
  · exact asks_installAccepted _ _ _ _ _ _

theorem asks_durableCache (kind : RecordKind) (key value : Bytes) (result : ResultAttributes)
    (history : Option (List Bytes)) : Asks P (durableCache rt d kind key value result history) := by
  unfold durableCache
  split
  · exact .pure
  · refine .bind .lift fun ⟨seq, stateHash⟩ => ?_
    dsimp only
    split
    · exact .modify
    · exact .bind .transact fun _ => .pure

/-! ## Reading -/

theorem readDhtValue_asks {kadKey : Text} {quorum : ℕ} (h : P (.getValue kadKey quorum)) :
    Asks P (readDhtValue kadKey quorum) :=
  asks_orOnException (.request h) .pure

theorem readFromPeers_asks (objectKeyHex : Text) (peers : List Text) :
    Asks OffDht (readFromPeers d objectKeyHex peers) := by
  induction peers with
  | nil => exact .pure
  | cons peer rest ih =>
    unfold readFromPeers
    split
    · exact ih
    · refine .bind (asks_orOnException (.request trivial) .pure) fun envelope => ?_
      split
      · exact .pure
      · exact ih

theorem readRemoteIdentityEnvelope_asks (objectKeyHex : Text) :
    Asks OffDht (readRemoteIdentityEnvelope d objectKeyHex) := by
  refine .bind .lift fun recordKey => .bind .lift fun _ => ?_
  split
  · exact asks_orOnException (.request trivial) .pure
  · exact .bind .reads fun peers => readFromPeers_asks _ peers

theorem readHistoryFromPeers_asks (kadKey stateHash : Bytes) (peers : List Text) :
    Asks OffDht (readHistoryFromPeers rt d kadKey stateHash peers) := by
  induction peers with
  | nil => exact .pure
  | cons peer rest ih =>
    unfold readHistoryFromPeers
    split
    · exact ih
    · refine .bind (asks_orOnException (.request trivial) .pure) fun envelope => ?_
      split
      · exact ih
      · split
        · exact ih
        · split
          · exact .pure
          · exact ih

theorem readRemoteIdentityEnvelopeByHash_asks (objectKeyHex : Text) (stateHash : Bytes) :
    Asks OffDht (readRemoteIdentityEnvelopeByHash rt d objectKeyHex stateHash) := by
  refine .bind .reads fun peers => ?_
  split
  · exact .pure
  · exact .bind .lift fun kadKey => readHistoryFromPeers_asks _ _ peers

theorem walkPredecessors_asks (objectKeyHex : Text) (remaining : ℕ)
    (chain seen : List Bytes) (total : ℕ) (envelope : Bytes) :
    Asks OffDht (walkPredecessors rt d objectKeyHex remaining chain seen total envelope) := by
  induction remaining generalizing chain seen total envelope with
  | zero => exact .pure
  | succ remaining ih =>
    unfold walkPredecessors
    split
    · exact .pure
    · split
      · exact .pure
      · split
        · exact .pure
        · split
          · exact .pure
          · split
            · exact .pure
            · refine .bind (readRemoteIdentityEnvelopeByHash_asks _ _) fun predecessor => ?_
              split
              · exact .pure
              · exact ih _ _ _ _

theorem readRemoteIdentityPredecessorChain_asks (objectKeyHex : Text) (envelope : Bytes) :
    Asks OffDht (readRemoteIdentityPredecessorChain rt d objectKeyHex envelope) := by
  refine .orHandle (walkPredecessors_asks _ _ _ _ _ _) fun e => ?_
  split
  · exact .pure
  · exact .raise

theorem validateCurrentIdentity_asks (objectKeyHex : Text) (recordKey current : Bytes)
    (chain : Option (List Bytes)) :
    Asks OffDht (validateCurrentIdentity rt d objectKeyHex recordKey current chain) := by
  unfold validateCurrentIdentity
  split
  · exact .pure
  · refine .bind (readRemoteIdentityPredecessorChain_asks _ _) fun walked => ?_
    split
    · split
      · exact .raise
      · exact .pure
    · split
      · exact .pure
      · exact .raise

theorem predecessorChainForPut_asks (objectKeyHex : Text) (recordKey : Bytes)
    (rawExisting : Option Bytes) :
    Asks OffDht (predecessorChainForPut rt d objectKeyHex recordKey rawExisting) := by
  refine .bind (asks_durableHistory _ _) fun history => ?_
  split
  · exact .pure
  · exact .pure
  · refine .bind (readRemoteIdentityPredecessorChain_asks _ _) fun walked => ?_
    split
    · exact .pure
    · split
      · exact .raise
      · exact .pure

theorem checkNotExpired_asks (condition : Option PublicationCondition) :
    Asks P (checkNotExpired condition) := by
  unfold checkNotExpired
  split
  · exact .pure
  · refine .bind .reads fun now => ?_
    split
    · exact .raise
    · exact .pure

theorem requireServableHistory_asks (envelope : Bytes) (message : String) :
    Asks P (requireServableHistory rt d envelope message) := by
  refine .bind .reads fun serverMode => ?_
  split
  · exact .bind .lift fun _ => .lift
  · exact .pure

/-- Where the DHT value of a publication is read. -/
theorem readIdentityForPut_asks (objectKeyHex : Text) (condition : Option PublicationCondition)
    (h : P (.getValue (kadKey objectKeyHex .identity) 0)) (hoff : ∀ q, OffDht q → P q) :
    Asks P (readIdentityForPut d objectKeyHex condition) := by
  unfold readIdentityForPut
  split
  · exact asks_orOnException (.request h) .raise
  · refine .bind (readDhtValue_asks h) fun value => ?_
    split
    · exact .pure
    · refine .bind .reads fun peers => ?_
      split
      · exact .pure
      · exact (readRemoteIdentityEnvelope_asks _).mono hoff

end DecentRegistry
