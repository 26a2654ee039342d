import DecentRegistry.Foundations.Requests
import DecentRegistry.Model.RegistryService
import DecentRegistry.Provider.WithdrawalAuthority

/-!
# Requests for a withdrawal

`RegistryService.withdraw_provider` publishes exactly where the head is active and the candidate
withdraws it, and raises everywhere else (`withdrawProvider_outcome`). It validates the head without
a predecessor, so a head that is a tombstone never passes for one: `ProviderAlreadyWithdrawn` is not
reached, and requests are classified as documented exactly over the heads that are no valid
tombstones (`withdrawProvider_classifies_iff`). -/

namespace DecentRegistry

open Fallible PyValue Coroutine

variable {rt : Runtime} {keys : KeyStore} {σ : Type} {s t : σ}

/-- The calls of a run of the service. -/
abbrev ServiceTrace (σ : Type) := List (Asked σ RegistryRequest RegistryRequest.Answer PyError)

/-! ## Heads -/

/-- The Provider payload of an envelope, as `validate_provider_get` reads it. -/
def readPayload (rt : Runtime) (e : Bytes) : Py ProviderPayload :=
  if isMultisignatureEnvelope rt e then do
    let envelope ← decodeMultisignatureEnvelope rt e
    let update ← decodeMultisignatureSignedUpdate rt envelope.signedUpdateBytes
    decodeProviderPayloadDict update.payload
  else do
    let signed ← decodeSignedEnvelope rt e
    let update ← decodeCanonicalSignedUpdate rt signed.1
    decodeProviderPayloadDict update.payload

/-- What is read is a withdrawal exactly if the payload is a tombstone, and then it has a
predecessor. -/
theorem validateProviderGet_payload {recordKey e : Bytes} {existing : Option Bytes}
    {read : ProviderRead} (h : validateProviderGet rt recordKey e existing = .ok read) :
    ∃ payload, readPayload rt e = .ok payload ∧ payload.isWithdrawn = read.isWithdrawn ∧
      (read.isWithdrawn = true → existing ≠ none) := by
  unfold validateProviderGet at h
  unfold readPayload
  split at h
  · rename_i hmultisig
    rw [if_pos hmultisig]
    simp only [validateMultisignatureProviderGet, bind_eq_ok] at h
    obtain ⟨envelope, henvelope, update, hupdate, payload, hpayload, h⟩ := h
    refine ⟨payload, by simp only [henvelope, hupdate, ok_bind, hpayload], ?_⟩
    cases payload with
    | active p =>
      simp only [bind_eq_ok, pure_eq_ok] at h
      obtain ⟨_, -, _, -, rfl⟩ := h
      exact ⟨rfl, by simp [ProviderRead.isWithdrawn]⟩
    | withdrawn p =>
      simp only [bind_eq_ok, orRaise_eq_ok, pure_eq_ok] at h
      obtain ⟨x, rfl, _, -, _, -, rfl⟩ := h
      exact ⟨rfl, by simp⟩
  · rename_i hlegacy
    rw [if_neg hlegacy]
    simp only [validateLegacyProviderGet, bind_eq_ok] at h
    obtain ⟨signed, hsigned, update, hupdate, payload, hpayload, h⟩ := h
    refine ⟨payload, by simp only [hsigned, hupdate, ok_bind, hpayload], ?_⟩
    cases payload with
    | active p =>
      simp only [bind_eq_ok, pure_eq_ok] at h
      obtain ⟨_, -, rfl⟩ := h
      exact ⟨rfl, by simp [ProviderRead.isWithdrawn]⟩
    | withdrawn p =>
      simp only [bind_eq_ok, orRaise_eq_ok, pure_eq_ok] at h
      obtain ⟨x, rfl, _, -, rfl⟩ := h
      exact ⟨rfl, by simp⟩

/-- How an envelope is signed for a record key: by its owner, by the signers it carries, or as the
successor of some predecessor. -/
inductive SignedFor (rt : Runtime) (recordKey e : Bytes) : Prop
  | owner {u signature : Bytes} {update : SignedUpdate}
      (envelope : decodeSignedEnvelope rt e = .ok (u, signature))
      (valid : (validateSignedUpdateOverwrite rt recordKey u signature false).result
        (fun _ => none) = .ok update) : SignedFor rt recordKey e
  | signers {state : MultisignatureState}
      (valid : validateMultisignatureEnvelope rt recordKey e = .ok state) : SignedFor rt recordKey e
  | successor {predecessor : Bytes} {read : ProviderRead}
      (valid : validateProviderGet rt recordKey e (some predecessor) = .ok read) :
      SignedFor rt recordKey e

/-- A validly signed tombstone for the object hash. -/
structure ValidTombstone (rt : Runtime) (objectHash : Text) (e : Bytes) : Prop where
  tombstone : ∃ p, readPayload rt e = .ok (.withdrawn p)
  signed : ∃ recordKey, fromHex objectHash = .ok recordKey ∧ SignedFor rt recordKey e

/-- An active record for the object hash, as `validate_provider_get` judges it. -/
def ActiveHead (rt : Runtime) (objectHash : Text) (e : Bytes) : Prop :=
  ∃ recordKey read, fromHex objectHash = .ok recordKey ∧
    validateProviderGet rt recordKey e none = .ok read ∧ read.isWithdrawn = false

/-- The candidate withdraws the head. -/
def Withdraws (rt : Runtime) (objectHash : Text) (candidate head : Bytes) : Prop :=
  ∃ recordKey r, fromHex objectHash = .ok recordKey ∧
    validateProviderOverwrite rt recordKey candidate (some head) = .ok (.withdrawn r)

/-- **A tombstone never passes for one**: without a predecessor it does not validate. -/
theorem requireActiveHead_of_tombstone {objectHash : Text} {e : Bytes}
    (h : ValidTombstone rt objectHash e) : requireActiveHead rt objectHash e =
      .error ⟨.providerStateInvalid, "current Provider Record is invalid"⟩ := by
  obtain ⟨⟨p, hp⟩, recordKey, hkey, -⟩ := h
  have hraises : ∃ err, validateProviderGet rt recordKey e none = .error err := by
    refine eq_error_of_forall_ne_ok fun read hread => ?_
    obtain ⟨payload, hpayload, hwithdrawn, hpredecessor⟩ := validateProviderGet_payload hread
    obtain rfl := Except.ok.inj (hp.symm.trans hpayload)
    exact hpredecessor hwithdrawn.symm rfl
  obtain ⟨err, herr⟩ := hraises
  simp only [requireActiveHead, hkey, ok_bind, herr]
  rfl

theorem requireActiveHead_eq_ok {objectHash : Text} {e : Bytes} {u : Unit} :
    requireActiveHead rt objectHash e = .ok u ↔ ActiveHead rt objectHash e := by
  simp only [requireActiveHead, bind_eq_ok, rewrap_eq_ok]
  constructor
  · rintro ⟨read, ⟨recordKey, hkey, hread⟩, h⟩
    refine ⟨recordKey, read, hkey, hread, ?_⟩
    cases read with
    | withdrawn r => cases h
    | payload p => rfl
    | record r => rfl
  · rintro ⟨recordKey, read, hkey, hread, hactive⟩
    refine ⟨read, ⟨recordKey, hkey, hread⟩, ?_⟩
    cases read with
    | withdrawn r => cases hactive
    | payload p => rfl
    | record r => rfl

theorem mapError_eq_ok {α : Type} {x : Py α} {f : PyError → PyError} {v : α} :
    x.mapError f = .ok v ↔ x = .ok v := by
  cases x <;> simp [Except.mapError]

theorem requireWithdrawal_eq_ok {objectHash : Text} {candidate head : Bytes} {u : Unit} :
    requireWithdrawal rt objectHash candidate head = .ok u ↔
      Withdraws rt objectHash candidate head := by
  simp only [requireWithdrawal, bind_eq_ok, mapError_eq_ok]
  constructor
  · rintro ⟨proposed, ⟨recordKey, hkey, hproposed⟩, h⟩
    cases proposed with
    | withdrawn r => exact ⟨recordKey, r, hkey, hproposed⟩
    | overwrite r => cases h
  · rintro ⟨recordKey, r, hkey, hproposed⟩
    exact ⟨.withdrawn r, ⟨recordKey, hkey, hproposed⟩, rfl⟩

/-! ## Runs -/

/-- `get_signed_provider_envelope` returns the head. -/
def AnswersHead (head : Bytes) : (q : RegistryRequest) → σ → Py q.Answer → σ → Prop
  | .getSignedProviderEnvelope _ _, _, r, _ => r = .ok (some head)
  | .putSignedProviderRecord _ _, _, _, _ => True

/-- The head is returned, and everything is published. -/
def answerHead (head : Bytes) : (q : RegistryRequest) → σ → Py q.Answer × σ
  | .getSignedProviderEnvelope _ _, s => (.ok (some head), s)
  | .putSignedProviderRecord _ _, s => (.ok (), s)

theorem answersHead_answerHead (head : Bytes) (q : RegistryRequest) (s : σ) :
    AnswersHead head q s (answerHead head q s).1 (answerHead head q s).2 := by
  cases q with
  | getSignedProviderEnvelope => rfl
  | putSignedProviderRecord => trivial

/-- The run publishes the envelope under the object hash. -/
def Publishes (l : ServiceTrace σ) (objectHash : Text) (e : Bytes) : Prop :=
  ∃ b ∈ l, b.request = .putSignedProviderRecord objectHash e

theorem not_publishes_of_read {objectHash objectHash' : Text} {e' : Bytes}
    {r : Py (Option Bytes)} :
    ¬ Publishes [⟨.getSignedProviderEnvelope objectHash 0, s, r, t⟩] objectHash' e' := by
  rintro ⟨b, hb, hrequest⟩
  obtain rfl := List.mem_singleton.1 hb
  cases hrequest

/-- The validation between the read and the publication. -/
def checkWithdrawal (rt : Runtime) (objectHash : Text) (candidate head : Bytes) : Py Unit := do
  requireActiveHead rt objectHash head
  requireWithdrawal rt objectHash candidate head

theorem checkWithdrawal_eq_ok {objectHash : Text} {candidate head : Bytes} {u : Unit} :
    checkWithdrawal rt objectHash candidate head = .ok u ↔
      ActiveHead rt objectHash head ∧ Withdraws rt objectHash candidate head := by
  simp only [checkWithdrawal, bind_eq_ok, requireActiveHead_eq_ok, requireWithdrawal_eq_ok,
    exists_const]

/-- How a request for a withdrawal ends. -/
inductive WithdrawalOutcome (rt : Runtime) (objectHash : Text) (candidate head : Bytes) :
    ServiceTrace σ → Py Unit → Prop
  | refused {e : PyError} {before after : σ} {r : Py (Option Bytes)}
      (h : checkWithdrawal rt objectHash candidate head = .error e) :
      WithdrawalOutcome rt objectHash candidate head
        [⟨.getSignedProviderEnvelope objectHash 0, before, r, after⟩] (.error e)
  | published {before after before' after' : σ} {r : Py (Option Bytes)} {x : Py Unit}
      (h : checkWithdrawal rt objectHash candidate head = .ok ()) :
      WithdrawalOutcome rt objectHash candidate head
        [⟨.getSignedProviderEnvelope objectHash 0, before, r, after⟩,
          ⟨.putSignedProviderRecord objectHash candidate, before', x, after'⟩] x

/-- The head is read. -/
theorem readHead_inv {objectHash : Text} {head : Bytes} {l : ServiceTrace σ}
    {x : Py (Option Bytes)}
    (h : Traced (AnswersHead head)
      ((Coro.request (RegistryRequest.getSignedProviderEnvelope objectHash 0)).orHandle
        fun e => .raise (headReadError e)) s l x t) :
    x = .ok (some head) ∧ l = [⟨.getSignedProviderEnvelope objectHash 0, s, x, t⟩] := by
  rcases h.orHandle_inv with ⟨read, rfl, hread⟩ | ⟨e, u, l₁, l₂, hread, -, -⟩
  · obtain ⟨hl, hanswer⟩ := hread.request_inv
    exact ⟨hanswer, hl⟩
  · obtain ⟨-, hanswer⟩ := hread.request_inv
    cases hanswer

/-- **How every request over a head ends.** -/
theorem withdrawProvider_outcome {a : WithdrawalArguments} {candidate head : Bytes}
    {l : ServiceTrace σ} {x : Py Unit} (hcandidate : withdrawalCandidate rt keys a = .ok candidate)
    (h : Traced (AnswersHead head) (withdrawProvider rt keys a) s l x t) :
    WithdrawalOutcome rt a.objectHash candidate head l x := by
  unfold withdrawProvider at h
  rw [hcandidate] at h
  change Traced _ ((Coro.orHandle _ _) >>= _) s l x t at h
  rcases h.bind_inv with ⟨read, u, l₁, l₂, hread, hrest, rfl⟩ | ⟨e, -, hread⟩
  · obtain ⟨hhead, rfl⟩ := readHead_inv hread
    obtain rfl := Except.ok.inj hhead
    change Traced _ (liftM (requireActiveHead rt a.objectHash head) >>= _) u l₂ x t at hrest
    rcases hrest.bind_inv with ⟨_, v, l₃, l₄, hfirst, hcandidate, rfl⟩ | ⟨e, rfl, hfirst⟩
    · obtain ⟨rfl, hactive, rfl⟩ := hfirst.lift_inv
      rcases hcandidate.bind_inv with ⟨_, w, l₅, l₆, hsecond, hput, rfl⟩ | ⟨e, rfl, hsecond⟩
      · obtain ⟨rfl, hwithdraws, rfl⟩ := hsecond.lift_inv
        obtain ⟨rfl, -⟩ := hput.request_inv
        exact .published (checkWithdrawal_eq_ok.2
          ⟨requireActiveHead_eq_ok.1 hactive.symm, requireWithdrawal_eq_ok.1 hwithdraws.symm⟩)
      · obtain ⟨rfl, hwithdraws, rfl⟩ := hsecond.lift_inv
        refine .refused ?_
        rw [checkWithdrawal, ← hactive, ok_bind, ← hwithdraws]
    · obtain ⟨rfl, hactive, rfl⟩ := hfirst.lift_inv
      refine .refused ?_
      rw [checkWithdrawal, ← hactive]
      rfl
  · cases (readHead_inv hread).1

/-! ## Classification -/

/-- A run over a head as documented: it publishes the candidate exactly over an active head that the
candidate withdraws, it publishes nothing and raises otherwise, and over a valid tombstone it raises
`ProviderAlreadyWithdrawn`. -/
structure Classified (rt : Runtime) (objectHash : Text) (candidate head : Bytes)
    (l : ServiceTrace σ) (x : Py Unit) : Prop where
  publishes : Publishes l objectHash candidate ↔
    ActiveHead rt objectHash head ∧ Withdraws rt objectHash candidate head
  refuses : ¬ (ActiveHead rt objectHash head ∧ Withdraws rt objectHash candidate head) →
    (∀ objectHash' e', ¬ Publishes l objectHash' e') ∧ ∃ e, x = .error e
  alreadyWithdrawn : ValidTombstone rt objectHash head →
    ∃ e, x = .error e ∧ e.cls = .providerAlreadyWithdrawn

/-- Over a valid tombstone, `ProviderStateInvalid` is raised in place of
`ProviderAlreadyWithdrawn`. -/
theorem exists_misclassified {a : WithdrawalArguments} {candidate head : Bytes}
    (hcandidate : withdrawalCandidate rt keys a = .ok candidate)
    (htombstone : ValidTombstone rt a.objectHash head) (s : σ) :
    ∃ l x t, Traced (AnswersHead head) (withdrawProvider rt keys a) s l x t ∧
      ¬ Classified rt a.objectHash candidate head l x := by
  have hruns := runs_run (AnswersHead head) (answerHead head) (answersHead_answerHead head)
    (withdrawProvider rt keys a) s
  obtain ⟨l, hl⟩ := hruns.traced
  refine ⟨l, _, _, hl, fun hclassified => ?_⟩
  obtain ⟨e, hx, hclass⟩ := hclassified.alreadyWithdrawn htombstone
  have hinvalid : checkWithdrawal rt a.objectHash candidate head =
      .error ⟨.providerStateInvalid, "current Provider Record is invalid"⟩ := by
    rw [checkWithdrawal, requireActiveHead_of_tombstone htombstone]
    rfl
  rw [hx] at hl
  cases withdrawProvider_outcome hcandidate hl with
  | refused h =>
    obtain rfl := Except.error.inj (h.symm.trans hinvalid)
    cases hclass
  | published h => cases h.symm.trans hinvalid

/-- **Requests are classified as documented exactly over the heads that are no valid
tombstones.** -/
theorem withdrawProvider_classifies_iff {a : WithdrawalArguments} {candidate : Bytes}
    (hcandidate : withdrawalCandidate rt keys a = .ok candidate) (head : Bytes) (s : σ) :
    (∀ l x t, Traced (AnswersHead head) (withdrawProvider rt keys a) s l x t →
      Classified rt a.objectHash candidate head l x) ↔ ¬ ValidTombstone rt a.objectHash head := by
  constructor
  · intro hclassified htombstone
    obtain ⟨l, x, t, hl, hnot⟩ := exists_misclassified hcandidate htombstone s
    exact hnot (hclassified l x t hl)
  · intro hnot l x t hrun
    cases withdrawProvider_outcome hcandidate hrun with
    | refused h =>
      have hcheck :
          ¬ (ActiveHead rt a.objectHash head ∧ Withdraws rt a.objectHash candidate head) :=
        fun hboth => by
          have hok : checkWithdrawal rt a.objectHash candidate head = .ok () :=
            checkWithdrawal_eq_ok.2 hboth
          cases h.symm.trans hok
      exact ⟨iff_of_false not_publishes_of_read hcheck,
        fun _ => ⟨fun _ _ => not_publishes_of_read, _, rfl⟩, fun h => (hnot h).elim⟩
    | published h =>
      have hcheck := checkWithdrawal_eq_ok.1 h
      exact ⟨iff_of_true ⟨_, List.mem_cons_of_mem _ (List.mem_singleton.2 rfl), rfl⟩ hcheck,
        fun h => (h hcheck).elim, fun h => (hnot h).elim⟩

/-- What is validated is a withdrawal. -/
def ProviderWrite.isWithdrawn : ProviderWrite → Bool
  | .withdrawn _ => true
  | .overwrite _ => false

/-- No private keys: a finalized withdrawal needs none. -/
def Sample.keyless : KeyStore where
  PrivateKey := Empty
  load _ := throw (valueError "cannot read owner private key file")
  publicKey k := k.elim
  sign k _ := k.elim

/-- The request to publish a finalized withdrawal of the sample object. -/
def Sample.withdrawal (envelope : Bytes) : WithdrawalArguments where
  objectHash := toHex providerKey
  ownerPrivkeyPemPath := none
  seq := none
  replacementObjectHash := none
  envelopeCbor := some envelope

namespace Sample

theorem legacyProvider_active : ActiveHead runtime (toHex providerKey) legacyProvider := by
  have h : ProviderRead.isWithdrawn <$>
      validateProviderGet runtime providerKey legacyProvider none = .ok false := by decide +kernel
  obtain ⟨read, hread, hactive⟩ := map_eq_ok.1 h
  exact ⟨providerKey, read, by decide +kernel, hread, hactive⟩

theorem legacyWithdrawal_withdraws :
    Withdraws runtime (toHex providerKey) legacyWithdrawal legacyProvider := by
  have h : ProviderWrite.isWithdrawn <$>
      validateProviderOverwrite runtime providerKey legacyWithdrawal (some legacyProvider) =
        .ok true := by decide +kernel
  obtain ⟨w, hw, hwithdrawn⟩ := map_eq_ok.1 h
  cases w with
  | withdrawn r => exact ⟨providerKey, r, by decide +kernel, hw⟩
  | overwrite r => cases hwithdrawn

end Sample

/-- Over the active record of `a`, the request publishes the withdrawal. -/
theorem legacyProvider_classified :
    (∃ l x t, Traced (AnswersHead Sample.legacyProvider) (withdrawProvider Sample.runtime
        Sample.keyless (Sample.withdrawal Sample.legacyWithdrawal)) () l x t) ∧
      ∀ l x t, Traced (AnswersHead Sample.legacyProvider) (withdrawProvider Sample.runtime
          Sample.keyless (Sample.withdrawal Sample.legacyWithdrawal)) () l x t →
        Publishes l (toHex Sample.providerKey) Sample.legacyWithdrawal := by
  constructor
  · obtain ⟨l, hl⟩ := (runs_run (AnswersHead Sample.legacyProvider)
      (answerHead Sample.legacyProvider) (answersHead_answerHead Sample.legacyProvider)
      (withdrawProvider Sample.runtime Sample.keyless
        (Sample.withdrawal Sample.legacyWithdrawal)) ()).traced
    exact ⟨l, _, _, hl⟩
  · intro l x t hrun
    refine ((withdrawProvider_classifies_iff (a := Sample.withdrawal Sample.legacyWithdrawal)
      rfl Sample.legacyProvider ()).2 ?_ l x t hrun).publishes.2
      ⟨Sample.legacyProvider_active, Sample.legacyWithdrawal_withdraws⟩
    rintro ⟨⟨p, hp⟩, -⟩
    have hactive : ProviderPayload.isWithdrawn <$>
        readPayload Sample.runtime Sample.legacyProvider = .ok false := by decide +kernel
    rw [hp] at hactive
    cases hactive

theorem Sample.validTombstone (e predecessor : Bytes)
    (hpayload : ProviderPayload.isWithdrawn <$> readPayload runtime e = .ok true)
    (hread : (validateProviderGet runtime providerKey e (some predecessor)).isOk = true) :
    ValidTombstone runtime (toHex providerKey) e := by
  obtain ⟨payload, hpayload, hwithdrawn⟩ := map_eq_ok.1 hpayload
  refine ⟨?_, providerKey, by decide +kernel, .successor (eq_ok_valueOf hread)⟩
  cases payload with
  | active p => cases hwithdrawn
  | withdrawn p => exact ⟨p, hpayload⟩

/-- **A repeated withdrawal is not reported as such**, over a legacy or a multisignature
tombstone. -/
theorem repeatedWithdrawal_misclassified :
    [Sample.legacyWithdrawal, Sample.providerWithdrawal].Forall fun head =>
      ValidTombstone Sample.runtime (toHex Sample.providerKey) head ∧
      ∃ l x t, Traced (AnswersHead head) (withdrawProvider Sample.runtime Sample.keyless
          (Sample.withdrawal Sample.legacyWithdrawal)) () l x t ∧
        ¬ Classified Sample.runtime
          (toHex Sample.providerKey) Sample.legacyWithdrawal head l x := by
  rw [List.forall_iff_forall_mem]
  intro head hhead
  have htombstone : ValidTombstone Sample.runtime (toHex Sample.providerKey) head := by
    rcases List.mem_pair.1 hhead with he | he
    · rw [he]
      exact Sample.validTombstone _ Sample.legacyProvider (by decide +kernel)
        Sample.legacyWithdrawal_readable.2
    · rw [he]
      exact Sample.validTombstone _ Sample.providerGenesis (by decide +kernel)
        Sample.providerWithdrawal_readable.2
  exact ⟨htombstone, exists_misclassified (a := Sample.withdrawal Sample.legacyWithdrawal) rfl
    htombstone ()⟩

end DecentRegistry
