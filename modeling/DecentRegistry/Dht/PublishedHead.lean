import DecentRegistry.Dht.Alone
import DecentRegistry.Dht.Payloads
import DecentRegistry.Sample.Dht

/-!
# The durable head after a publication

A publication that returns has made its envelope the durable head, except for one cell of its table:
a legacy envelope that is no withdrawal and that meets a multisignature value, or a withdrawal of a
Provider, is published and not stored (`put_isDurableHead_iff`).
-/

namespace DecentRegistry

open Fallible PyValue Coroutine

/-! ## Publication -/

/-- `put_signed_provider_record` and `put_signed_identity_record`. -/
def putSignedRecord (rt : Runtime) (d : DhtInstance) (kind : RecordKind) (hash : Text)
    (envelopeCbor : Bytes) : Dht Unit :=
  match kind with
  | .provider => putSignedProviderRecord rt d hash envelopeCbor
  | .identity => putSignedIdentityRecord rt d hash envelopeCbor

/-- How a publication reads the current value: of an Identity, from the configured peers as well. -/
def currentDhtValue (d : DhtInstance) (kind : RecordKind) (hash : Text) : Dht (Option Bytes) :=
  match kind with
  | .provider => readDhtValue (kadKey hash .provider) 0
  | .identity => readIdentityForPut d hash none

/-- A publication from the state finds the value, once it has the lock. -/
def Environment.PutFinds (env : Environment) (d : DhtInstance) (kind : RecordKind) (hash : Text)
    (s : DhtState) (value : Option Bytes) : Prop :=
  (run env.answer (currentDhtValue d kind hash) (env.answer .acceptedLock s).2).1 = .ok value

/-- **The cells of the table in which a publication is stored**: a multisignature envelope, and a
legacy one over legacy state; a withdrawal of a Provider, and an active legacy record over an active
legacy record. -/
def isStoredWhenPublished (rt : Runtime) (kind : RecordKind) (e : Bytes)
    (value head : Option Bytes) : Bool :=
  isMultisignatureEnvelope rt e ||
    match kind with
    | .provider =>
      isProviderWithdrawalEnvelope rt (some e) || !usesAcceptedState rt e value head
    | .identity => !(isMultisignatureValue rt value || isMultisignatureValue rt head)

variable {rt : Runtime} {d : DhtInstance} {env : Environment} {kind : RecordKind} {key e : Bytes}
  {s t : DhtState}

/-! ## Parts of a publication -/

/-- Under the lock, a method that returns does so from the state in which the lock was given. -/
theorem run_withAcceptedLock_eq_ok {α : Type} {p : Dht α} {a : α}
    (h : run env.answer (withAcceptedLock p) s = (.ok a, t)) :
    ∃ t', run env.answer p (env.answer .acceptedLock s).2 = (.ok a, t') ∧
      t.durable = t'.durable := by
  have h' := run_bind_eq_ok.1 h
  obtain ⟨u, s', hlock, h⟩ := h'
  have hlock : env.answer .acceptedLock s = (.ok u, s') := run_request.symm.trans hlock
  simp only [run_andFinally_eq_ok, run_modify_eq_ok] at h
  obtain ⟨t', hp, rfl⟩ := h
  rw [hlock]
  exact ⟨t', hp, rfl⟩

/-- **An installed envelope is the durable head.** -/
theorem run_durableInstall {result : ResultAttributes} {history : Option (List Bytes)} {u : Unit}
    (hd : d.durableStore.isSome = true)
    (h : run env.answer (durableInstall rt d kind key e result history) s = (.ok u, t)) :
    t.durable.get kind key = some e := by
  obtain ⟨backend, hbackend⟩ := Option.isSome_iff_exists.1 hd
  have hinstalled : run env.answer (installAccepted rt d backend kind key e result history) s =
      (.ok u, t) := by
    simp only [durableInstall, hbackend] at h
    split at h
    · obtain ⟨_, _, hrequired, h⟩ := run_bind_eq_ok.1 h
      obtain ⟨-, rfl⟩ := run_lift_eq_ok.1 hrequired
      exact h
    · exact h
  simp only [installAccepted, run_bind_eq_ok, run_durableGet, Prod.mk.injEq, Except.ok.injEq,
    headIn_eq hd] at hinstalled
  obtain ⟨_, _, ⟨rfl, rfl⟩, h⟩ := hinstalled
  split at h
  · obtain ⟨-, rfl⟩ := run_pure_eq_ok.1 h
    assumption
  · simp only [run_bind_eq_ok, run_lift_eq_ok] at h
    obtain ⟨⟨seq, stateHash⟩, _, ⟨-, rfl⟩, h⟩ := h
    split at h
    · obtain rfl := run_modify_eq_ok.1 h
      simp
    · simp only [run_bind_eq_ok, run_storePutIfNewer_eq_ok] at h
      obtain ⟨written, _, ⟨D, hput, rfl⟩, h⟩ := h
      obtain ⟨m, encoded, -, -, rfl⟩ := LMDBDatastore.putIfNewer_eq_ok.1 hput
      cases written with
      | true =>
        obtain ⟨-, rfl⟩ := run_pure_eq_ok.1 h
        simp
      | false =>
        -- it was refused, and the head is still not the envelope
        simp only [Bool.not_false, if_true, Bool.false_eq_true, if_false, run_bind_eq_ok,
          run_durableGet, headIn_eq hd, Prod.mk.injEq, Except.ok.injEq] at h
        obtain ⟨_, _, ⟨rfl, rfl⟩, h⟩ := h
        rw [if_neg ‹_›] at h
        exact (run_raise_eq_ok.1 h).elim

/-- A head that is installed and then published is the durable one. -/
theorem run_durableInstall_publish {result : ResultAttributes} {history : Option (List Bytes)}
    {dhtKey : Text} {context : Option IdentityWriteContext} {u : Unit}
    (hd : d.durableStore.isSome = true)
    (h : run env.answer (do
      durableInstall rt d kind key e result history
      publishDhtValue dhtKey e context) s = (.ok u, t)) : t.durable.get kind key = some e := by
  obtain ⟨_, _, hinstall, hpublish⟩ := run_bind_eq_ok.1 h
  rw [(publishDhtValue_quiet _ _ _).durable_eq hpublish]
  exact run_durableInstall hd hinstall

/-- What the legacy branch of `put_signed_provider_record` validates it stores. -/
theorem run_storeLegacyProvider {objectHash : Text} {rawDht : Option Bytes} {u : Unit}
    (hd : d.durableStore.isSome = true) (h : run env.answer (do
      let result ← validateProviderOverwrite rt key e rawDht
      checkActiveDhtPredecessor rt result rawDht
      publishDhtValue (kadKey objectHash .provider) e none
      match result with
      | .withdrawn r =>
        durableInstall rt d .provider key e r.attributes
          (rawDht.map fun existing => [existing, e])
      | .overwrite _ => storePut .provider key e : Dht Unit) s = (.ok u, t)) :
    t.durable.get .provider key = some e := by
  obtain ⟨result, _, hvalid, h⟩ := run_bind_eq_ok.1 h
  obtain ⟨_, _, -, h⟩ := run_bind_eq_ok.1 h
  obtain ⟨_, _, -, h⟩ := run_bind_eq_ok.1 h
  cases result with
  | withdrawn r => exact run_durableInstall hd h
  | overwrite r =>
    obtain rfl := run_modify_eq_ok.1 h
    simp

/-- A publication of a legacy Provider Record over a legacy record stores it. -/
theorem run_putLegacyProvider {objectHash : Text} {rawDht rawLocal : Option Bytes} {u : Unit}
    (hd : d.durableStore.isSome = true)
    (h : run env.answer (putLegacyProvider rt d objectHash key e rawDht rawLocal) s = (.ok u, t)) :
    t.durable.get .provider key = some e := by
  simp only [putLegacyProvider, hd, if_true, and_true] at h
  split at h
  · obtain ⟨_, _, -, h⟩ := run_bind_eq_ok.1 h
    exact run_storeLegacyProvider hd h
  · exact run_storeLegacyProvider hd h

/-- A publication that uses the accepted state stores a multisignature envelope and a withdrawal,
and nothing else. -/
theorem run_putAcceptedProvider {objectHash : Text} {rawDht rawLocal : Option Bytes} {u : Unit}
    (hd : d.durableStore.isSome = true)
    (h : run env.answer (putAcceptedProvider rt d objectHash key e rawDht rawLocal) s =
      (.ok u, t)) :
    if isMultisignatureEnvelope rt e = true ∨ isProviderWithdrawalEnvelope rt (some e) = true then
      t.durable.get .provider key = some e
    else t.durable = s.durable := by
  simp only [putAcceptedProvider, run_bind_eq_ok, run_lift_eq_ok] at h
  obtain ⟨rawExisting, _, ⟨-, rfl⟩, result, _, ⟨hvalid, rfl⟩, h⟩ := h
  have hwithdraws := validateProviderOverwrite_of_payload hvalid
  cases result with
  | withdrawn r =>
    rw [if_pos (.inr (hwithdraws.2 ⟨r, rfl⟩))]
    simp only [run_bind_eq_ok, run_lift_eq_ok, run_durableHistory, Prod.mk.injEq,
      Except.ok.injEq] at h
    obtain ⟨existing, _, ⟨-, rfl⟩, history, _, ⟨-, rfl⟩, h⟩ := h
    split at h
    · obtain ⟨_, _, -, h⟩ := run_bind_eq_ok.1 h
      exact run_durableInstall_publish hd h
    · exact run_durableInstall_publish hd h
  | overwrite r =>
    simp only [hwithdraws, reduceCtorEq, exists_false, or_false]
    dsimp only at h
    split at h
    · rename_i hmulti
      rw [if_pos hmulti]
      exact run_durableInstall_publish hd h
    · rename_i hmulti
      rw [if_neg hmulti]
      exact (publishDhtValue_quiet _ _ _).durable_eq h

/-- A publication of a legacy Identity over legacy state stores it. -/
theorem run_putLegacyIdentity {objectKeyHex : Text} {rawExisting : Option Bytes} {u : Unit}
    (hd : d.durableStore.isSome = true)
    (h : run env.answer (putLegacyIdentity rt d objectKeyHex key e rawExisting none) s =
      (.ok u, t)) : t.durable.get .identity key = some e := by
  simp only [putLegacyIdentity, run_bind_eq_ok, run_lift_eq_ok] at h
  obtain ⟨result, _, -, _, _, -, _, _, -, hinstall⟩ := h
  exact run_durableInstall hd hinstall

/-- A publication that uses the accepted state stores a multisignature envelope, and nothing
else. -/
theorem run_putAcceptedIdentity {objectKeyHex : Text} {rawExisting : Option Bytes} {u : Unit}
    (hd : d.durableStore.isSome = true)
    (h : run env.answer (putAcceptedIdentity rt d objectKeyHex key e rawExisting none) s =
      (.ok u, t)) :
    if isMultisignatureEnvelope rt e = true then t.durable.get .identity key = some e
    else t.durable = s.durable := by
  simp only [putAcceptedIdentity, run_bind_eq_ok, run_lift_eq_ok, Option.isSome_none,
    Bool.false_eq_true, false_and, if_false, hd, and_true] at h
  obtain ⟨chain, s₁, hchain, result, _, ⟨-, rfl⟩, _, s₂, hnotExpired, h⟩ := h
  have hdurable : s₂.durable = s.durable :=
    ((checkNotExpired_quiet none).durable_eq hnotExpired).trans
      ((predecessorChainForPut_quiet _ _ _).durable_eq hchain)
  split at h
  · rename_i hmulti
    rw [if_pos hmulti]
    exact run_durableInstall_publish hd h
  · rename_i hmulti
    rw [if_neg hmulti, (publishDhtValue_quiet _ _ _).durable_eq h, hdurable]

/-! ## The head after a publication -/

/-- A publication stores its envelope in these cells, and in the others leaves the durable store as
it was. -/
theorem run_putSignedRecord {hash : Text} {value : Option Bytes} {u : Unit}
    (hd : d.durableStore.isSome = true) (hvalue : env.PutFinds d kind hash s value)
    (h : run env.answer (putSignedRecord rt d kind hash e) s = (.ok u, t)) :
    ∃ recordKey, fromHex hash = .ok recordKey ∧
      if isStoredWhenPublished rt kind e value (s.durable.get kind recordKey) = true then
        t.durable.get kind recordKey = some e
      else t.durable = s.durable := by
  have hlock : (env.answer .acceptedLock s).2.durable = s.durable := env.keepsDurable _ _
  cases kind with
  | provider =>
    obtain ⟨recordKey, _, hfrom, h⟩ := run_bind_eq_ok.1 h
    obtain ⟨hkey, rfl⟩ := run_lift_eq_ok.1 hfrom
    obtain ⟨t', h, ht⟩ := run_withAcceptedLock_eq_ok h
    obtain ⟨value', s₁, hread, h⟩ := run_bind_eq_ok.1 h
    obtain rfl : value' = value := by
      have hfound : run env.answer (readDhtValue (kadKey hash .provider) 0) _ = (_, _) := hread
      simpa [Environment.PutFinds, currentDhtValue, hfound] using hvalue
    have hs₁ : s₁.durable = s.durable := ((readDhtValue_quiet _ _).durable_eq hread).trans hlock
    simp only [run_bind_eq_ok, run_durableGet, Prod.mk.injEq, Except.ok.injEq, headIn_eq hd,
      hs₁] at h
    obtain ⟨_, _, ⟨rfl, rfl⟩, h⟩ := h
    refine ⟨recordKey, hkey, ?_⟩
    rw [ht]
    split at h
    · rename_i hused
      have hstored := run_putAcceptedProvider hd h
      simp only [isStoredWhenPublished, hused, hs₁, Bool.not_true, Bool.or_false,
        Bool.or_eq_true] at hstored ⊢
      exact hstored
    · rename_i hunused
      rw [if_pos (by simp [isStoredWhenPublished, hunused])]
      exact run_putLegacyProvider hd h
  | identity =>
    obtain ⟨recordKey, _, hfrom, h⟩ := run_bind_eq_ok.1 h
    obtain ⟨hkey, rfl⟩ := run_lift_eq_ok.1 hfrom
    obtain ⟨t', h, ht⟩ := run_withAcceptedLock_eq_ok h
    obtain ⟨value', s₁, hread, h⟩ := run_bind_eq_ok.1 h
    obtain rfl : value' = value := by
      simpa [Environment.PutFinds, currentDhtValue, hread] using hvalue
    have hs₁ : s₁.durable = s.durable :=
      ((readIdentityForPut_quiet _ _).durable_eq hread).trans hlock
    simp only [run_bind_eq_ok, run_durableGet, run_lift_eq_ok, Prod.mk.injEq, Except.ok.injEq,
      headIn_eq hd, hs₁] at h
    obtain ⟨_, _, ⟨rfl, rfl⟩, rawExisting, _, ⟨-, rfl⟩, _, _, ⟨-, rfl⟩, _, s₂, hservable, h⟩ := h
    have hs₂ : s₂.durable = s.durable :=
      ((requireServableHistory_quiet _ _).durable_eq hservable).trans hs₁
    refine ⟨recordKey, hkey, ?_⟩
    rw [ht]
    split at h
    · rename_i hlegacy
      rw [if_pos (by simp_all [isStoredWhenPublished])]
      exact run_putLegacyIdentity hd h
    · rename_i hused
      have hstored := run_putAcceptedIdentity hd h
      have hcell : isStoredWhenPublished rt .identity e value' (s.durable.get .identity recordKey) =
          isMultisignatureEnvelope rt e := by
        cases hmulti : isMultisignatureEnvelope rt e <;>
          simp_all [isStoredWhenPublished]
      rw [hcell, ← hs₂]
      exact hstored

/-! ## The claim on calls -/

/-- **A publication that returns is the durable head exactly in these cells, or if it was
before.** -/
theorem put_isDurableHead_iff {hash : Text} {value : Option Bytes}
    (hd : d.durableStore.isSome = true) (hvalue : env.PutFinds d kind hash s value)
    (hrun : run env.answer (putSignedRecord rt d kind hash e) s = (.ok (), t)) :
    ∃ recordKey, fromHex hash = .ok recordKey ∧
      (t.durable.get kind recordKey = some e ↔
        isStoredWhenPublished rt kind e value (s.durable.get kind recordKey) = true ∨
          s.durable.get kind recordKey = some e) := by
  obtain ⟨recordKey, hkey, hstored⟩ := run_putSignedRecord hd hvalue hrun
  refine ⟨recordKey, hkey, ?_⟩
  split at hstored
  · rename_i hcell
    simp [hstored, hcell]
  · rename_i hcell
    simp [hstored, hcell]

/-- A publication of a Provider Record over a store while the DHT has a value. -/
def putAlone (rt : Runtime) (d : DhtInstance) (objectHash : Text) (e : Bytes)
    (value : Option Bytes) (D : LMDBDatastore) : Py Unit × DhtState :=
  run (Environment.constantly value).answer (putSignedRecord rt d .provider objectHash e)
    (Sample.stateOver D)

theorem Environment.constantly_putFinds {hash : Text} (value : Option Bytes) :
    (Environment.constantly value).PutFinds d .provider hash s value := rfl

theorem putAlone_returns {objectHash : Text} {value : Option Bytes} {D : LMDBDatastore}
    (h : (putAlone rt d objectHash e value D).1 = .ok ()) :
    run (Environment.constantly value).answer (putSignedRecord rt d .provider objectHash e)
      (Sample.stateOver D) = (.ok (), (putAlone rt d objectHash e value D).2) :=
  Prod.ext h rfl

/-- The first publication of a legacy Provider Record is its durable head. -/
theorem legacyProvider_isDurableHead :
    ∃ t recordKey, run (Environment.constantly none).answer
        (putSignedRecord Sample.runtime Sample.node .provider (toHex Sample.providerKey)
          Sample.legacyProvider) (Sample.stateOver .empty) = (.ok (), t) ∧
      fromHex (toHex Sample.providerKey) = .ok recordKey ∧
      (t.durable.get .provider recordKey = some Sample.legacyProvider ↔
        isStoredWhenPublished Sample.runtime .provider Sample.legacyProvider none
            ((Sample.stateOver .empty).durable.get .provider recordKey) = true ∨
          (Sample.stateOver .empty).durable.get .provider recordKey =
            some Sample.legacyProvider) := by
  obtain ⟨t, hrun⟩ : ∃ t, run (Environment.constantly none).answer
      (putSignedRecord Sample.runtime Sample.node .provider (toHex Sample.providerKey)
        Sample.legacyProvider) (Sample.stateOver .empty) = (.ok (), t) :=
    ⟨_, putAlone_returns (by decide +kernel)⟩
  obtain ⟨recordKey, hkey, hhead⟩ :=
    put_isDurableHead_iff rfl (Environment.constantly_putFinds none) hrun
  exact ⟨t, recordKey, hrun, hkey, hhead⟩

/-- **A reactivation that is published and not stored.** After the legacy Provider Record and its
withdrawal, the publication of the owner's next active record returns, and the withdrawal stays the
durable head. -/
theorem legacyReactivation_notDurableHead :
    Sample.withdrawnStore.get .provider Sample.providerKey = some Sample.legacyWithdrawal ∧
      ∃ t, run (Environment.constantly (some Sample.legacyWithdrawal)).answer
          (putSignedRecord Sample.runtime Sample.node .provider (toHex Sample.providerKey)
            Sample.legacyReactivation) (Sample.stateOver Sample.withdrawnStore) = (.ok (), t) ∧
        t.durable.get .provider Sample.providerKey ≠ some Sample.legacyReactivation := by
  obtain ⟨hstore, hreturns, hhead⟩ :
      Sample.withdrawnStore.get .provider Sample.providerKey = some Sample.legacyWithdrawal ∧
      (putAlone Sample.runtime Sample.node (toHex Sample.providerKey) Sample.legacyReactivation
        (some Sample.legacyWithdrawal) Sample.withdrawnStore).1 = .ok () ∧
      (putAlone Sample.runtime Sample.node (toHex Sample.providerKey) Sample.legacyReactivation
        (some Sample.legacyWithdrawal) Sample.withdrawnStore).2.durable.get .provider
          Sample.providerKey ≠ some Sample.legacyReactivation := by
    decide +kernel
  exact ⟨hstore, _, putAlone_returns hreturns, hhead⟩

end DecentRegistry
