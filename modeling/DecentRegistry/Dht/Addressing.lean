import DecentRegistry.Dht.Keys
import DecentRegistry.Dht.Requests
import DecentRegistry.Sample.Dht

/-!
# Spellings of a hash in DHT keys

The durable store keeps a record under the bytes of its hash, and the DHT under the string the
caller spelled the hash with. Two spellings of one hash, which differ in letter case or white space,
are two DHT keys, and both parse as keys of the record. A publication under one spelling and a read
under another therefore meet at one DHT key only where the spellings are equal, or, for
`get_signed_provider_envelope`, which spells the hash anew, where the publication used the
lower-case spelling (`sameDhtKey_iff`). -/

namespace DecentRegistry

open Fallible PyValue Coroutine

variable {rt : Runtime} {d : DhtInstance} {α β : Type} {p : Dht α} {q : Dht β} {k k' : Text}

/-- The DHT key of a method: the one its requests to the DHT are on. -/
structure UsesDhtKey (p : Dht α) (k : Text) : Prop where
  only : Asks (OnDhtKey k) p
  reads : ∃ quorum, MayAsk (.getValue k quorum) p

theorem UsesDhtKey.unique (h : UsesDhtKey p k) (h' : UsesDhtKey p k') : k = k' := by
  obtain ⟨quorum, hread⟩ := h.reads
  exact h'.only.of_mayAsk hread

/-- Two methods use one DHT key. -/
def SameDhtKey (p : Dht α) (q : Dht β) : Prop := ∃ k, UsesDhtKey p k ∧ UsesDhtKey q k

theorem UsesDhtKey.same_iff (h : UsesDhtKey p k) (h' : UsesDhtKey q k') :
    SameDhtKey p q ↔ k = k' := by
  constructor
  · rintro ⟨k'', hp, hq⟩
    rw [h.unique hp, h'.unique hq]
  · rintro rfl
    exact ⟨k, h, h'⟩

theorem mayAsk_withAcceptedLock {r : Request} (h : MayAsk r p) : MayAsk r (withAcceptedLock p) :=
  .after_request () h.andFinally

theorem mayAsk_readDhtValue (kadKey : Text) (quorum : ℕ) :
    MayAsk (.getValue kadKey quorum) (readDhtValue kadKey quorum) := MayAsk.request.orHandle

/-! ## The key of each method -/

section Methods

variable {hash : Text} {key : Bytes}

theorem putAcceptedProvider_asks (recordKey envelope : Bytes) (rawDht rawLocal : Option Bytes) :
    Asks (OnDhtKey (kadKey hash .provider))
      (putAcceptedProvider rt d hash recordKey envelope rawDht rawLocal) := by
  refine .bind .lift fun existing => .bind .lift fun result => ?_
  split
  · refine .bind .lift fun existing' => .bind (asks_durableHistory _ _) fun history =>
      .when ?_ fun _ => .bind (asks_durableInstall _ _ _ _ _) fun _ => .request rfl
    exact .bind (asks_durableGet _ _) fun _ => .lift
  · exact .when (asks_durableInstall _ _ _ _ _) fun _ => .request rfl

theorem putLegacyProvider_asks (recordKey envelope : Bytes) (rawDht rawLocal : Option Bytes) :
    Asks (OnDhtKey (kadKey hash .provider))
      (putLegacyProvider rt d hash recordKey envelope rawDht rawLocal) := by
  unfold putLegacyProvider
  refine .when .lift fun _ => .bind .lift fun result => .bind .lift fun _ =>
    .bind (.request rfl) fun _ => ?_
  split
  · split
    · exact asks_durableInstall _ _ _ _ _
    · exact .modify
  · exact .pure

theorem putSignedProviderRecord_dhtKey (h : fromHex hash = .ok key) (envelope : Bytes) :
    UsesDhtKey (putSignedProviderRecord rt d hash envelope) (kadKey hash .provider) := by
  constructor
  · refine .bind .lift fun recordKey => asks_withAcceptedLock trivial ?_
    refine .bind (readDhtValue_asks rfl) fun rawDht =>
      .bind (asks_durableGet _ _) fun rawLocal => ?_
    split
    · exact putAcceptedProvider_asks _ _ _ _
    · exact putLegacyProvider_asks _ _ _ _
  · exact ⟨0, .after_lift h (mayAsk_withAcceptedLock (mayAsk_readDhtValue _ _).bind)⟩

theorem getSignedProviderRecord_dhtKey (h : fromHex hash = .ok key) (quorum : ℕ) :
    UsesDhtKey (getSignedProviderRecord rt d hash quorum) (kadKey hash .provider) := by
  constructor
  · refine .bind .lift fun recordKey => .bind (readDhtValue_asks rfl) fun rawDht =>
      .bind (asks_durableGet _ _) fun rawLocal => .bind .lift fun current => ?_
    split
    · exact .pure
    · refine .bind (asks_durableHistory _ _) fun history => ?_
      split
      · exact .pure
      · exact .when (asks_durableCache _ _ _ _ _) fun _ => .pure
  · exact ⟨quorum, .after_lift h (mayAsk_readDhtValue _ _).bind⟩

theorem getSignedProviderEnvelope_dhtKey (h : fromHex hash = .ok key)
    (hlength : key.length = 32) (quorum : ℕ) :
    UsesDhtKey (getSignedProviderEnvelope rt d hash quorum) (kadKey (toHex key) .provider) := by
  have hparse : rewrap (fromHex hash) (valueError "object_hash must be valid hex") = .ok key :=
    rewrap_eq_ok.2 h
  constructor
  · exact .after_lift hparse (.bind .lift fun _ => asks_withAcceptedLock trivial
      (.bind (readDhtValue_asks rfl) fun rawDht =>
        .bind (asks_durableGet _ _) fun rawLocal => .lift))
  · exact ⟨quorum, .after_lift hparse (.after_lift (raiseIf_neg (not_not.2 hlength))
      (mayAsk_withAcceptedLock (mayAsk_readDhtValue _ _).bind))⟩

theorem putLegacyIdentity_asks (recordKey envelope : Bytes) (existing : Option Bytes)
    (condition : Option PublicationCondition) :
    Asks (OnDhtKey (kadKey hash .identity))
      (putLegacyIdentity rt d hash recordKey envelope existing condition) :=
  .bind .lift fun _ => .bind (checkNotExpired_asks _) fun _ => .bind (.request rfl) fun _ =>
    asks_durableInstall _ _ _ _ _

theorem putAcceptedIdentity_asks (recordKey envelope : Bytes) (existing : Option Bytes)
    (condition : Option PublicationCondition) :
    Asks (OnDhtKey (kadKey hash .identity))
      (putAcceptedIdentity rt d hash recordKey envelope existing condition) := by
  refine .bind ((predecessorChainForPut_asks _ _ _).mono (OffDht.onDhtKey _)) fun chain =>
    .bind .lift fun result => .when .lift fun _ => .bind (checkNotExpired_asks _) fun _ => ?_
  split
  · refine .bind (.request rfl) fun _ => ?_
    split
    · exact asks_durableInstall _ _ _ _ _
    · exact .pure
  · exact .when (asks_durableInstall _ _ _ _ _) fun _ => .request rfl

theorem putSignedIdentityRecord_dhtKey (h : fromHex hash = .ok key) (envelope : Bytes) :
    UsesDhtKey (putSignedIdentityRecord rt d hash envelope) (kadKey hash .identity) := by
  constructor
  · refine .bind .lift fun recordKey => asks_withAcceptedLock trivial ?_
    refine .bind (readIdentityForPut_asks _ _ rfl (OffDht.onDhtKey _)) fun rawDht =>
      .bind (asks_durableGet _ _) fun rawLocal => .bind .lift fun existing => .bind .lift fun _ =>
        .bind (requireServableHistory_asks _ _) fun _ => ?_
    split
    · exact putLegacyIdentity_asks _ _ _ _
    · exact putAcceptedIdentity_asks _ _ _ _
  · exact ⟨0, .after_lift h (mayAsk_withAcceptedLock (mayAsk_readDhtValue _ _).bind.bind)⟩

theorem getSignedIdentityRecord_dhtKey (h : fromHex hash = .ok key) (quorum : ℕ) :
    UsesDhtKey (getSignedIdentityRecord rt d hash quorum) (kadKey hash .identity) := by
  have hread : Asks (OnDhtKey (kadKey hash .identity)) (readIdentityForGet d hash quorum) := by
    refine .bind (readDhtValue_asks rfl) fun value => ?_
    split
    · exact .pure
    · refine .bind .reads fun peers => ?_
      split
      · exact .pure
      · exact (readRemoteIdentityEnvelope_asks _).mono (OffDht.onDhtKey _)
  constructor
  · refine .bind (asks_withAcceptedLock trivial ?_) fun _ => .pure
    refine .bind .lift fun recordKey => .bind hread fun rawDht =>
      .bind (asks_durableGet _ _) fun rawLocal => ?_
    split
    · exact .pure
    · exact .pure
    · refine .bind (asks_durableHistory _ _) fun history =>
        .bind ((validateCurrentIdentity_asks _ _ _ _).mono (OffDht.onDhtKey _)) fun validated => ?_
      split
      · exact .pure
      · exact .when (asks_durableCache _ _ _ _ _) fun _ => .pure
  · exact ⟨quorum, (mayAsk_withAcceptedLock
      (.after_lift h (mayAsk_readDhtValue _ _).bind.bind)).bind⟩

end Methods

/-! ## Two spellings -/

/-- **When a publication and a read meet at one DHT key**, for two spellings of one hash; and both
spellings make keys that parse as those of the record. -/
theorem sameDhtKey_iff (rt : Runtime) (d : DhtInstance) {hash hash' : Text} {key : Bytes}
    (h : fromHex hash = .ok key) (h' : fromHex hash' = .ok key) (hlength : key.length = 32)
    (envelope : Bytes) (quorum : ℕ) :
    (SameDhtKey (putSignedProviderRecord rt d hash envelope)
        (getSignedProviderRecord rt d hash' quorum) ↔ hash = hash') ∧
      (SameDhtKey (putSignedProviderRecord rt d hash envelope)
        (getSignedProviderEnvelope rt d hash' quorum) ↔ hash = toHex key) ∧
      (SameDhtKey (putSignedIdentityRecord rt d hash envelope)
        (getSignedIdentityRecord rt d hash' quorum) ↔ hash = hash') ∧
      ∀ kind, parseKey (kadKey hash kind) = .ok (kind, key) ∧
        parseKey (kadKey hash' kind) = .ok (kind, key) ∧
        (kadKey hash kind = kadKey hash' kind ↔ hash = hash') := by
  have hinj (kind : RecordKind) (a b : Text) : kadKey a kind = kadKey b kind ↔ a = b := by
    rw [kadKey_injective]
    exact and_iff_right rfl
  refine ⟨?_, ?_, ?_, fun kind => ⟨parseKey_eq_ok.2 ⟨hash, rfl, h, hlength⟩,
    parseKey_eq_ok.2 ⟨hash', rfl, h', hlength⟩, hinj kind hash hash'⟩⟩
  · rw [(putSignedProviderRecord_dhtKey h envelope).same_iff
      (getSignedProviderRecord_dhtKey h' quorum)]
    exact hinj _ _ _
  · rw [(putSignedProviderRecord_dhtKey h envelope).same_iff
      (getSignedProviderEnvelope_dhtKey h' hlength quorum)]
    exact hinj _ _ _
  · rw [(putSignedIdentityRecord_dhtKey h envelope).same_iff
      (getSignedIdentityRecord_dhtKey h' quorum)]
    exact hinj _ _ _

namespace Sample

/-- The Object Hash of the sample Provider in upper case. -/
def upperHash : Text := (toHex providerKey).map Char.toUpper

/-- An instance without a durable store. -/
def client : DhtInstance := { node with durableStore := none }

/-- The DHT has the values of `network`. -/
def networkAnswers (network : Text → Option Bytes) : (q : Request) → DhtState →
    Py q.Answer × DhtState
  | .getValue kadKey _, s => (.ok (network kadKey), s)
  | q, s => answers none q s

/-- The DHT after the legacy Provider Record was published in lower case. -/
def publishedLower : Text → Option Bytes :=
  fun k => if k = kadKey (toHex providerKey) .provider then some legacyProvider else none

end Sample

/-- One spelling. -/
theorem lowerHash_sameDhtKey :
    SameDhtKey (putSignedProviderRecord Sample.runtime Sample.node (toHex Sample.providerKey)
        Sample.legacyProvider)
      (getSignedProviderRecord Sample.runtime Sample.node (toHex Sample.providerKey) 0) :=
  (sameDhtKey_iff Sample.runtime Sample.node (fromHex_toHex Sample.providerKey)
    (fromHex_toHex Sample.providerKey) (by decide +kernel) Sample.legacyProvider 0).1.2 rfl

/-- Published in lower case and read in upper case: another DHT key, and the record is not found.
The upper-case key parses as a key of the same record. -/
theorem upperHash_notFound :
    fromHex Sample.upperHash = .ok Sample.providerKey ∧
      parseKey (kadKey Sample.upperHash .provider) =
        parseKey (kadKey (toHex Sample.providerKey) .provider) ∧
      kadKey Sample.upperHash .provider ≠ kadKey (toHex Sample.providerKey) .provider ∧
      ¬ SameDhtKey (putSignedProviderRecord Sample.runtime Sample.client (toHex Sample.providerKey)
          Sample.legacyProvider)
        (getSignedProviderRecord Sample.runtime Sample.client Sample.upperHash 0) ∧
      (run (Sample.networkAnswers Sample.publishedLower) (getSignedProviderRecord Sample.runtime
        Sample.client Sample.upperHash 0) (Sample.stateOver .empty)).1 = .ok none ∧
      (run (Sample.networkAnswers Sample.publishedLower) (getSignedProviderRecord Sample.runtime
        Sample.client (toHex Sample.providerKey) 0) (Sample.stateOver .empty)).1 ≠ .ok none := by
  have hupper : fromHex Sample.upperHash = .ok Sample.providerKey := by decide +kernel
  have hne : Sample.upperHash ≠ toHex Sample.providerKey := by decide +kernel
  refine ⟨hupper, by decide +kernel, ?_, ?_, by decide +kernel, by decide +kernel⟩
  · rw [Ne, kadKey_injective]
    exact fun h => hne h.2
  · rw [(putSignedProviderRecord_dhtKey (fromHex_toHex _) _).same_iff
      (getSignedProviderRecord_dhtKey hupper 0), kadKey_injective]
    exact fun h => hne h.2.symm

end DecentRegistry
