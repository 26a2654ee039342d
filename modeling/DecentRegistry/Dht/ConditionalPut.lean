import DecentRegistry.Dht.Alone
import DecentRegistry.Dht.Caching
import DecentRegistry.Dht.Requests
import DecentRegistry.Sample.Dht

/-!
# Conditional publication

`put_signed_identity_record_if_current` reads the DHT, chooses the newer of its value and the
durable head, and publishes only over a head of the expected state hash, before a deadline.
Everything it does before it puts is `Harmless`: it puts nothing and leaves the durable store alone.
So a run in which no put returns has written nothing but what `get_value` cached, and where it puts,
the head, the candidate and the clock are as they have to be
(`putSignedIdentityRecordIfCurrent_atomic`). -/

namespace DecentRegistry

open Fallible PyValue Coroutine

variable {rt : Runtime} {d : DhtInstance} {α β : Type}
  {rely : (q : Request) → DhtState → Py q.Answer → DhtState → Prop} {s t u : DhtState}

/-! ## Harmless parts -/

/-- The request puts a value into the DHT. -/
def IsPut : Request → Prop
  | .putValue _ _ _ => True
  | _ => False

/-- A part of a run that puts nothing and leaves the durable store alone. -/
structure Harmless (s : DhtState) (l : Trace) (t : DhtState) : Prop where
  between : Between SameDurable s l t
  putless : ∀ a ∈ l, ¬ IsPut a.request

theorem not_isPut_of_offDht : ∀ q, OffDht q → ¬ IsPut q
  | .getValue _ _, _ | .acceptedLock, _ | .readerEnvelope _, _ | .peerEnvelope _ _, _
  | .peerHistory _ _, _ => id
  | .putValue _ _ _, h => h.elim

namespace Harmless

variable {l l' : Trace}

theorem nil (h : SameDurable s t) : Harmless s [] t := ⟨h, by simp⟩

theorem append (h : Harmless s l t) (h' : Harmless t l' u) : Harmless s (l ++ l') u := by
  refine ⟨h.between.append sameDurable_trans h'.between, fun a ha => ?_⟩
  rcases List.mem_append.1 ha with ha | ha
  · exact h.putless a ha
  · exact h'.putless a ha

end Harmless

theorem harmless_of_quiet {p : Dht α} {Φ : α → Prop} {l : Trace} {x : Py α} (hquiet : Quiet p Φ)
    (hasks : Asks (fun q => ¬ IsPut q) p) (h : Traced rely p s l x t) : Harmless s l t :=
  ⟨(h.ensured hquiet sameDurable_refl sameDurable_trans).1, h.asks hasks⟩

/-- A harmless first part raises, or the rest runs after it. -/
theorem harmless_bind {p : Dht α} {f : α → Dht β} {Φ : α → Prop} {l : Trace} {x : Py β}
    (hquiet : Quiet p Φ) (hasks : Asks (fun q => ¬ IsPut q) p)
    (h : Traced rely (p >>= f) s l x t) :
    Harmless s l t ∨ ∃ a v l₁ l₂, Traced rely p s l₁ (.ok a) v ∧ Harmless s l₁ v ∧
      Traced rely (f a) v l₂ x t ∧ l = l₁ ++ l₂ := by
  rcases h.bind_inv with ⟨a, v, l₁, l₂, hp, hf, rfl⟩ | ⟨e, -, hp⟩
  · exact .inr ⟨a, v, l₁, l₂, hp, harmless_of_quiet hquiet hasks hp, hf, rfl⟩
  · exact .inl (harmless_of_quiet hquiet hasks hp)

/-- A check raises, or the rest runs. -/
theorem harmless_lift {y : Py α} {f : α → Dht β} {l : Trace} {x : Py β}
    (h : Traced rely (liftM y >>= f) s l x t) :
    Harmless s l t ∨ ∃ a, y = .ok a ∧ Traced rely (f a) s l x t := by
  rcases h.bind_inv with ⟨a, v, l₁, l₂, hp, hf, rfl⟩ | ⟨e, -, hp⟩
  · obtain ⟨rfl, hy, rfl⟩ := hp.lift_inv
    exact .inr ⟨a, hy.symm, hf⟩
  · obtain ⟨rfl, -, rfl⟩ := hp.lift_inv
    exact .inl (.nil rfl)

/-! ## The end of a publication -/

/-- How a publication ends: it puts nothing, or it puts the envelope, valid over the existing one,
while the deadline is ahead. -/
inductive Publication (rt : Runtime) (recordKey e : Bytes) (existing : Option Bytes) (key : Text)
    (expiresAt : Int) (s : DhtState) : Trace → DhtState → Prop
  | nothing {l : Trace} {t : DhtState} (h : Harmless s l t) :
      Publication rt recordKey e existing key expiresAt s l t
  | put {before after : Trace} {context : Option IdentityWriteContext} {s₁ s₂ t : DhtState}
      {answer : Py Unit} {chain : Option (List Bytes)} {r : IdentityOverwriteResult}
      (harmless : Harmless s before s₁)
      (valid : validateIdentityOverwrite rt recordKey e existing chain = .ok r)
      (inTime : s₁.surroundings.clock < expiresAt) (putless : ∀ a ∈ after, ¬ IsPut a.request)
      (failed : ∀ err, answer = .error err → after = [] ∧ SameDurable s₂ t) :
      Publication rt recordKey e existing key expiresAt s
        (before ++ ⟨.putValue key e context, s₁, answer, s₂⟩ :: after) t

namespace Publication

variable {recordKey e : Bytes} {existing : Option Bytes} {key : Text} {expiresAt : Int}
  {l l' : Trace}

theorem after_harmless (hl : Harmless s l t)
    (h : Publication rt recordKey e existing key expiresAt t l' u) :
    Publication rt recordKey e existing key expiresAt s (l ++ l') u := by
  cases h with
  | nothing h => exact .nothing (hl.append h)
  | put harmless valid inTime putless failed =>
    rw [← List.append_assoc]
    exact .put (hl.append harmless) valid inTime putless failed

end Publication

/-! ## The two branches -/

theorem checkNotExpired_inv {condition : PublicationCondition} {l : Trace} {x : Py Unit}
    (h : Traced rely (checkNotExpired (some condition)) s l x t) :
    l = [] ∧ t = s ∧ (x = .ok () → s.surroundings.clock < condition.expiresAt) := by
  unfold checkNotExpired at h
  rcases h.bind_inv with ⟨now, v, l₁, l₂, hread, hrest, rfl⟩ | ⟨e, -, hread⟩
  · obtain ⟨rfl, hnow, rfl⟩ := hread.transact_inv
    obtain rfl := Except.ok.inj hnow
    dsimp only at hrest
    by_cases hexpired : condition.expiresAt ≤ v.surroundings.clock
    · rw [if_pos hexpired] at hrest
      cases hrest
      exact ⟨rfl, rfl, fun hx => by cases hx⟩
    · rw [if_neg hexpired] at hrest
      obtain ⟨rfl, -, rfl⟩ := hrest.pure_inv
      exact ⟨rfl, rfl, fun _ => not_le.1 hexpired⟩
  · obtain ⟨-, he, -⟩ := hread.transact_inv
    cases he

section

variable {recordKey e : Bytes} {existing : Option Bytes} {key : Text} {expected : Bytes}
  {expiresAt : Int} {l : Trace} {x : Py Unit}

/-- The deadline check, the put, and a rest that puts nothing. -/
theorem publication_of_put {context : Option IdentityWriteContext} {chain : Option (List Bytes)}
    {r : IdentityOverwriteResult} {rest : Unit → Dht Unit}
    (hvalid : validateIdentityOverwrite rt recordKey e existing chain = .ok r)
    (hrest : ∀ u, Asks (fun q => ¬ IsPut q) (rest u))
    (h : Traced rely (do
      checkNotExpired (some ⟨expected, expiresAt⟩)
      let u ← publishDhtValue key e context
      rest u) s l x t) : Publication rt recordKey e existing key expiresAt s l t := by
  rcases h.bind_inv with ⟨_, v, l₁, l₂, hcheck, hput, rfl⟩ | ⟨err, -, hcheck⟩
  · obtain ⟨rfl, rfl, hclock⟩ := checkNotExpired_inv hcheck
    rcases hput.bind_inv with ⟨u, v', l₁, l₂, hdone, hafter, rfl⟩ | ⟨err, -, hfailed⟩
    · obtain ⟨rfl, -⟩ := hdone.request_inv
      exact .put (.nil rfl) hvalid (hclock rfl) (hafter.asks (hrest u)) fun _ herr => by cases herr
    · obtain ⟨rfl, -⟩ := hfailed.request_inv
      exact .put (.nil rfl) hvalid (hclock rfl) (by simp) fun _ _ => ⟨rfl, rfl⟩
  · obtain ⟨rfl, rfl, -⟩ := checkNotExpired_inv hcheck
    exact .nothing (.nil rfl)

theorem putLegacyIdentity_publication {hex : Text}
    (h : Traced rely (putLegacyIdentity rt d hex recordKey e existing
      (some ⟨expected, expiresAt⟩)) s l x t) :
    Publication rt recordKey e existing (kadKey hex .identity) expiresAt s l t := by
  rcases harmless_lift h with h | ⟨r, hvalid, h⟩
  · exact .nothing h
  · exact publication_of_put hvalid (fun _ => asks_durableInstall _ _ _ _ _) h

theorem putAcceptedIdentity_publication {hex : Text}
    (h : Traced rely (putAcceptedIdentity rt d hex recordKey e existing
      (some ⟨expected, expiresAt⟩)) s l x t) :
    Publication rt recordKey e existing (kadKey hex .identity) expiresAt s l t := by
  rcases harmless_bind (predecessorChainForPut_quiet _ _ _)
    ((predecessorChainForPut_asks _ _ _).mono not_isPut_of_offDht) h with
    hraised | ⟨chain, v, l₁, l₂, -, hl₁, hrest, rfl⟩
  · exact .nothing hraised
  · refine Publication.after_harmless hl₁ ?_
    rcases harmless_lift hrest with hraised | ⟨r, hvalid, hrest⟩
    · exact .nothing hraised
    · have hend : ∀ {v l}, Traced rely (do
          checkNotExpired (some ⟨expected, expiresAt⟩)
          publishDhtValue (kadKey hex .identity) e (some ⟨recordKey, e, existing, chain⟩)
          if isMultisignatureEnvelope rt e = true then
            durableInstall rt d .identity recordKey e r.attributes none) v l x t →
          Publication rt recordKey e existing (kadKey hex .identity) expiresAt v l t := by
        intro v l h
        refine publication_of_put hvalid (fun _ => ?_) h
        split
        · exact asks_durableInstall _ _ _ _ _
        · exact .pure
      dsimp only at hrest
      split at hrest
      · rcases harmless_lift hrest with hraised | ⟨_, -, hrest⟩
        · exact .nothing hraised
        · exact hend hrest
      · exact hend hrest

end

/-! ## The selected head -/

theorem durableGet_inv {kind : RecordKind} {key : Bytes} {l : Trace} {x : Py (Option Bytes)}
    (h : Traced rely (durableGet d kind key) s l x t) :
    l = [] ∧ x = .ok (headIn d s.durable kind key) ∧ t = s := by
  unfold durableGet at h
  unfold headIn
  split at h
  · rename_i hnone
    rw [if_pos hnone]
    exact h.pure_inv
  · rename_i hsome
    rw [if_neg hsome]
    exact h.transact_inv

/-- A conditional publication goes on only with an answer of the DHT. -/
theorem readIdentityForPut_inv {hex : Text} {condition : PublicationCondition} {l : Trace}
    {rawDht : Option Bytes}
    (h : Traced rely (readIdentityForPut d hex (some condition)) s l (.ok rawDht) t) :
    l = [⟨.getValue (kadKey hex .identity) 0, s, .ok rawDht, t⟩] := by
  rcases h.orHandle_inv with ⟨value, hvalue, hread⟩ | ⟨err, u, l₁, l₂, -, hhandler, -⟩
  · obtain rfl := Except.ok.inj hvalue
    exact hread.request_inv.1
  · split at hhandler
    · cases hhandler
    · cases hhandler

theorem checkExpectedState_inv {expected : Bytes} {expiresAt : Int} {existing : Option Bytes}
    {u : Unit} (h : checkExpectedState rt (some ⟨expected, expiresAt⟩) existing = .ok u) :
    ∃ head, existing = some head ∧ HasStateHash rt head expected := by
  simp only [checkExpectedState, bind_eq_ok, raiseIf_eq_ok, not_not] at h
  obtain ⟨actual, hactual, rfl⟩ := h
  cases existing with
  | none => cases hactual
  | some head =>
    simp only [bind_eq_ok, rewrap_eq_ok, pure_eq_ok, Option.some.injEq] at hactual
    obtain ⟨signedUpdate, hsigned, hhash⟩ := hactual
    exact ⟨head, rfl, signedUpdate, hsigned, hhash⟩

/-- A put of a conditional publication: the DHT was read, under the lock, before anything else; the
newer of its value and the durable head has the expected state hash, the candidate is valid over it,
and the deadline is ahead of the clock. -/
structure PutsOverHead (rt : Runtime) (d : DhtInstance) (hex : Text) (e : Bytes)
    (expected : Option Bytes) (expiresAt : Int) (s : DhtState) (earlier : Trace)
    (a : Asked DhtState Request Request.Answer PyError) : Prop where
  request : ∃ context, a.request = .putValue (kadKey hex .identity) e context
  overHead : ∃ recordKey rawDht s₀ s₁ rest head stateHash chain r, fromHex hex = .ok recordKey ∧
    earlier = ⟨.acceptedLock, s, .ok (), s₀⟩ ::
      ⟨.getValue (kadKey hex .identity) 0, s₀, .ok rawDht, s₁⟩ :: rest ∧
    selectNewestEnvelope rt rawDht (headIn d s₁.durable .identity recordKey) = .ok (some head) ∧
    HasStateHash rt head stateHash ∧ expected = some stateHash ∧
    validateIdentityOverwrite rt recordKey e (some head) chain = .ok r
  inTime : a.before.surroundings.clock < expiresAt

/-- The put of a part of a run without others. -/
theorem eq_of_only_put {l₁ l₂ l₁' l₂' : Trace}
    {a a' : Asked DhtState Request Request.Answer PyError}
    (h : l₁ ++ a :: l₂ = l₁' ++ a' :: l₂') (ha' : IsPut a'.request)
    (h₁ : ∀ b ∈ l₁, ¬ IsPut b.request) (h₂ : ∀ b ∈ l₂, ¬ IsPut b.request) : l₁' = l₁ ∧ a' = a := by
  rcases List.append_eq_append_iff.1 h with ⟨m, rfl, hm⟩ | ⟨m, rfl, hm⟩
  · cases m with
    | nil =>
      obtain ⟨rfl, -⟩ := List.cons.inj hm
      exact ⟨by simp, rfl⟩
    | cons b m =>
      obtain ⟨-, rfl⟩ := List.cons.inj hm
      exact (h₂ a' (by simp) ha').elim
  · cases m with
    | nil =>
      obtain ⟨rfl, -⟩ := List.cons.inj hm
      exact ⟨by simp, rfl⟩
    | cons b m =>
      obtain ⟨rfl, -⟩ := List.cons.inj hm
      exact (h₁ a' (by simp) ha').elim

/-- The puts of a run are over the head, and a run without a completed put writes nothing. -/
structure Atomic (rt : Runtime) (d : DhtInstance) (hex : Text) (e : Bytes)
    (expected : Option Bytes) (expiresAt : Int) (s : DhtState) (l : Trace) (t : DhtState) :
    Prop where
  puts : ∀ earlier a later, l = earlier ++ a :: later → IsPut a.request →
    PutsOverHead rt d hex e expected expiresAt s earlier a
  unwritten : (∀ a ∈ l, IsPut a.request → ∃ err, a.answer = .error err) → Between SameDurable s l t

theorem Harmless.atomic {hex : Text} {e : Bytes} {expected : Option Bytes} {expiresAt : Int}
    {l : Trace} (h : Harmless s l t) : Atomic rt d hex e expected expiresAt s l t where
  puts earlier a later hl ha := (h.putless a (by simp [hl]) ha).elim
  unwritten _ := h.between

/-- A publication after the lock and the read of the DHT. -/
theorem Publication.atomic {hex : Text} {recordKey e head stateHash : Bytes}
    {rawDht : Option Bytes} {expiresAt : Int} {s₀ s₁ : DhtState} {l : Trace}
    (h : Publication rt recordKey e (some head) (kadKey hex .identity) expiresAt s₁ l t)
    (hkey : fromHex hex = .ok recordKey)
    (hselect : selectNewestEnvelope rt rawDht (headIn d s₁.durable .identity recordKey) =
      .ok (some head)) (hhash : HasStateHash rt head stateHash) :
    Atomic rt d hex e (some stateHash) expiresAt s (⟨.acceptedLock, s, .ok (), s₀⟩ ::
      ⟨.getValue (kadKey hex .identity) 0, s₀, .ok rawDht, s₁⟩ :: l) t := by
  cases h with
  | nothing h =>
    refine Harmless.atomic ⟨⟨rfl, rfl, h.between⟩, ?_⟩
    simpa [IsPut] using h.putless
  | @put before after context v v' _ answer chain r harmless valid inTime putless failed =>
    constructor
    · intro earlier a later hl ha
      obtain ⟨rfl, rfl⟩ := @eq_of_only_put (⟨.acceptedLock, s, .ok (), s₀⟩ ::
          ⟨.getValue (kadKey hex .identity) 0, s₀, .ok rawDht, s₁⟩ :: before) _ _ _ _ _ hl ha
        (by simpa [IsPut] using harmless.putless) putless
      exact ⟨⟨context, rfl⟩,
        ⟨recordKey, rawDht, s₀, s₁, before, head, stateHash, chain, r, hkey, rfl,
        hselect, hhash, rfl, valid⟩, inTime⟩
    · intro hfails
      obtain ⟨err, herr⟩ := hfails ⟨.putValue (kadKey hex .identity) e context, v, answer, v'⟩
        (by simp) trivial
      obtain ⟨rfl, hsame⟩ := failed err herr
      exact ⟨rfl, rfl, harmless.between.append sameDurable_trans ⟨rfl, hsame⟩⟩

theorem Atomic.then_same {hex : Text} {e : Bytes} {expected : Option Bytes} {expiresAt : Int}
    {l : Trace} (h : Atomic rt d hex e expected expiresAt s l t) (hu : SameDurable t u) :
    Atomic rt d hex e expected expiresAt s l u where
  puts := h.puts
  unwritten hfails := by
    have hlast : Harmless t [] u := .nil hu
    simpa using (h.unwritten hfails).append sameDurable_trans hlast.between

/-- What follows the read of the DHT under the lock. -/
theorem putIdentityRecord_publication {hex : Text} {recordKey e expected : Bytes}
    {rawDht : Option Bytes} {expiresAt : Int} {l : Trace} {x : Py Unit}
    (h : Traced rely (do
      let rawLocal ← durableGet d .identity recordKey
      let rawExisting ← selectIdentityForPut rt (some ⟨expected, expiresAt⟩) rawDht rawLocal
      checkExpectedState rt (some ⟨expected, expiresAt⟩) rawExisting
      requireServableHistory rt d e
        "durable Identity history is required for post-genesis writes on a Registry server"
      if !(isMultisignatureEnvelope rt e || isMultisignatureValue rt rawDht ||
          isMultisignatureValue rt rawLocal)
      then putLegacyIdentity rt d hex recordKey e rawExisting (some ⟨expected, expiresAt⟩)
      else putAcceptedIdentity rt d hex recordKey e rawExisting (some ⟨expected, expiresAt⟩))
      s l x t) :
    Harmless s l t ∨ ∃ head,
      selectNewestEnvelope rt rawDht (headIn d s.durable .identity recordKey) = .ok (some head) ∧
      HasStateHash rt head expected ∧
      Publication rt recordKey e (some head) (kadKey hex .identity) expiresAt s l t := by
  rcases h.bind_inv with ⟨rawLocal, v, l₁, l₂, hget, hrest, rfl⟩ | ⟨err, -, hget⟩
  · obtain ⟨rfl, hlocal, rfl⟩ := durableGet_inv hget
    obtain rfl := Except.ok.inj hlocal
    rcases harmless_lift hrest with hraised | ⟨existing, hselect, hrest⟩
    · exact .inl hraised
    rcases harmless_lift hrest with hraised | ⟨_, hcheck, hrest⟩
    · exact .inl hraised
    obtain ⟨head, rfl, hhash⟩ := checkExpectedState_inv hcheck
    refine .inr ⟨head, rewrap_eq_ok.1 hselect, hhash, ?_⟩
    rcases harmless_bind (requireServableHistory_quiet _ _) (requireServableHistory_asks _ _)
      hrest with hraised | ⟨_, v', l₃, l₄, -, hl₃, hput, rfl⟩
    · exact .nothing hraised
    · rw [List.nil_append]
      refine Publication.after_harmless hl₃ ?_
      split at hput
      · exact putLegacyIdentity_publication hput
      · exact putAcceptedIdentity_publication hput
  · obtain ⟨-, he, -⟩ := durableGet_inv hget
    cases he

/-- What is done under the lock. -/
theorem putIdentityRecord_atomic {hex : Text} {e expected : Bytes} {expiresAt : Int} {l : Trace}
    {x : Py Unit}
    (h : Traced rely (putIdentityRecord rt d hex e (some ⟨expected, expiresAt⟩)) s l x t) :
    Atomic rt d hex e (some expected) expiresAt s l t := by
  rcases harmless_lift h with hraised | ⟨recordKey, hkey, hlocked⟩
  · exact hraised.atomic
  rcases withAcceptedLock_inv hlocked with ⟨err, -, rfl⟩ | ⟨s₀, l', rfl, u, hbody, hu⟩
  · exact Harmless.atomic ⟨⟨rfl, rfl⟩, by simp [IsPut]⟩
  refine Atomic.then_same ?_ hu
  have locked : ∀ {l}, Harmless s₀ l u → Atomic rt d hex e (some expected) expiresAt s
      (⟨.acceptedLock, s, .ok (), s₀⟩ :: l) u := fun h =>
    Harmless.atomic ⟨⟨rfl, h.between⟩, by simpa [IsPut] using h.putless⟩
  have hasks : Asks (fun q => ¬ IsPut q)
      (readIdentityForPut d hex (some ⟨expected, expiresAt⟩)) :=
    readIdentityForPut_asks _ _ id not_isPut_of_offDht
  rcases hbody.bind_inv with ⟨rawDht, s₁, l₁, l₂, hread, hrest, rfl⟩ | ⟨err, -, hread⟩
  · have hquiet := harmless_of_quiet (readIdentityForPut_quiet _ _) hasks hread
    rcases putIdentityRecord_publication hrest with hraised | ⟨head, hselect, hhash, hput⟩
    · exact locked (hquiet.append hraised)
    · obtain rfl := readIdentityForPut_inv hread
      exact hput.atomic hkey hselect hhash
  · exact locked (harmless_of_quiet (readIdentityForPut_quiet _ _) hasks hread)

/-- **A conditional publication is atomic up to its put**: it puts only the candidate, over a head
of the expected state hash that makes it valid, ahead of the deadline; and as long as no put has
returned, no step of the call changes the durable store. It ends as it was if the answers keep it,
and as `get_value` left it if nobody but `KadDHT` writes meanwhile. -/
theorem putSignedIdentityRecordIfCurrent_atomic {hex : Text} {e : Bytes} {expected : Option Bytes}
    {expiresAt : Int} {l : Trace} {x : Py Unit}
    (h : Traced rely (putSignedIdentityRecordIfCurrent rt d hex e expected expiresAt) s l x t) :
    (∀ earlier a later, l = earlier ++ a :: later → IsPut a.request →
      PutsOverHead rt d hex e expected expiresAt s earlier a) ∧
    ((∀ a ∈ l, IsPut a.request → ∃ err, a.answer = .error err) →
      Between SameDurable s l t ∧
      ((∀ a ∈ l, SameDurable a.before a.after) → t.durable = s.durable) ∧
      ((∀ a ∈ l, KadAnswers rt d a.request a.before a.after) → Cached rt d s t)) := by
  have hatomic : Atomic rt d hex e expected expiresAt s l t := by
    rcases harmless_lift h with hraised | ⟨stateHash, hexpected, hrest⟩
    · exact hraised.atomic
    rcases harmless_lift hrest with hraised | ⟨_, -, hrest⟩
    · exact hraised.atomic
    obtain rfl := orRaise_eq_ok.1 hexpected
    exact putIdentityRecord_atomic hrest
  refine ⟨hatomic.puts, fun hfails => ?_⟩
  have hbetween := hatomic.unwritten hfails
  exact ⟨hbetween, hbetween.keeps sameDurable_trans, cached_of_between hbetween⟩

/-- Answers with which every put times out. -/
def Sample.unwritable (value : Option Bytes) : (q : Request) → DhtState → Py q.Answer × DhtState
  | .putValue _ _ _, s => (.error ⟨.timedOut, "put"⟩, s)
  | .acceptedLock, s => answers value .acceptedLock s
  | .getValue kadKey quorum, s => answers value (.getValue kadKey quorum) s
  | .readerEnvelope hex, s => answers value (.readerEnvelope hex) s
  | .peerEnvelope peer kadKey, s => answers value (.peerEnvelope peer kadKey) s
  | .peerHistory peer kadKey, s => answers value (.peerHistory peer kadKey) s

/-- Where a put is asked for, it raises. -/
theorem Sample.unwritable_raises {value : Option Bytes}
    {a : Asked DhtState Request Request.Answer PyError} (hput : IsPut a.request)
    (h : (a.answer, a.after) = Sample.unwritable value a.request a.before) :
    ∃ err, a.answer = .error err := by
  rcases a with ⟨q, s, r, s'⟩
  cases q with
  | putValue => exact ⟨_, (Prod.mk.inj h).1⟩
  | acceptedLock => exact hput.elim
  | getValue => exact hput.elim
  | readerEnvelope => exact hput.elim
  | peerEnvelope => exact hput.elim
  | peerHistory => exact hput.elim

theorem Sample.unwritable_sameDurable (value : Option Bytes) (q : Request) (s : DhtState) :
    SameDurable s (Sample.unwritable value q s).2 := by
  cases q with
  | putValue => rfl
  | acceptedLock =>
    dsimp only [SameDurable, Sample.unwritable, Sample.answers]
    split <;> rfl
  | getValue => rfl
  | readerEnvelope => rfl
  | peerEnvelope => rfl
  | peerHistory => rfl

/-- The state hash of a sample envelope. -/
def Sample.stateHash (e : Bytes) : Option Bytes :=
  (envelopeSignedUpdateBytes runtime e).toOption.map runtime.sha256

/-- The publication of an upgrade, over the legacy Identity that the DHT answers, comes to its
put. -/
theorem unwritableUpgrade_unwritten :
    ∃ l t, Traced (fun q s r s' => (r, s') = Sample.unwritable (some Sample.legacyIdentity) q s)
      (putSignedIdentityRecordIfCurrent Sample.runtime Sample.node (toHex Sample.identityKey)
        Sample.upgrade (Sample.stateHash Sample.legacyIdentity) 1)
      (Sample.stateOver .empty) l (.error ⟨.timedOut, "put"⟩) t ∧ t.durable = .empty := by
  have hraises : (run (Sample.unwritable (some Sample.legacyIdentity))
      (putSignedIdentityRecordIfCurrent Sample.runtime Sample.node (toHex Sample.identityKey)
        Sample.upgrade (Sample.stateHash Sample.legacyIdentity) 1)
      (Sample.stateOver .empty)).1 = .error ⟨.timedOut, "put"⟩ := by decide +kernel
  have hruns := runs_run
    (fun q s r s' => (r, s') = Sample.unwritable (some Sample.legacyIdentity) q s)
    (Sample.unwritable (some Sample.legacyIdentity)) (fun _ _ => rfl)
    (putSignedIdentityRecordIfCurrent Sample.runtime Sample.node (toHex Sample.identityKey)
      Sample.upgrade (Sample.stateHash Sample.legacyIdentity) 1) (Sample.stateOver .empty)
  rw [hraises] at hruns
  obtain ⟨l, hl⟩ := hruns.traced
  refine ⟨l, _, hl, ((putSignedIdentityRecordIfCurrent_atomic hl).2 ?_).2.1 ?_⟩
  · exact fun a ha hput => Sample.unwritable_raises hput (hl.answered a ha)
  · intro a ha
    have hafter : a.after = _ := congrArg Prod.snd (hl.answered a ha)
    rw [hafter]
    exact Sample.unwritable_sameDurable _ _ _

/-! ## What the read caches -/

/-- Answers in which the DHT finds a value, and `get_value` caches it; every put times out. -/
def Sample.caching (value : Bytes) : (q : Request) → DhtState → Py q.Answer × DhtState
  | .getValue kadKey _, s =>
    (.ok (some value), (run (Sample.answers none)
      (inboundPut Sample.runtime Sample.node (utf8 kadKey) value) s).2)
  | q, s => Sample.unwritable none q s

theorem Sample.caching_of_isPut {value : Bytes} {q : Request} {s : DhtState} (h : IsPut q) :
    Sample.caching value q s = Sample.unwritable none q s := by
  cases q with
  | getValue => exact h.elim
  | putValue => rfl
  | acceptedLock => exact h.elim
  | readerEnvelope => exact h.elim
  | peerEnvelope => exact h.elim
  | peerHistory => exact h.elim

theorem Sample.caching_kadAnswers (value : Bytes) (q : Request) (s : DhtState) :
    KadAnswers Sample.runtime Sample.node q s (Sample.caching value q s).2 := by
  cases q with
  | getValue => exact .single (.put (runs_run _ (Sample.answers none) (fun _ _ => trivial) _ _))
  | putValue => exact .refl
  | acceptedLock => exact Sample.unwritable_sameDurable none .acceptedLock s
  | readerEnvelope => rfl
  | peerEnvelope => rfl
  | peerHistory => rfl

/-- **A refused publication after which the store has changed.** The store is empty, and the DHT
answers the genesis of `alice`, which `get_value` caches. It has not the expected state hash, so the
call raises, and no put has returned; but the genesis is the durable head. -/
theorem refusedPublication_caches :
    ∃ l t, Traced (fun q s r s' => (r, s') = Sample.caching Sample.identityGenesis q s)
        (putSignedIdentityRecordIfCurrent Sample.runtime Sample.node (toHex Sample.identityKey)
          Sample.upgrade (Sample.stateHash Sample.legacyIdentity) 1)
        (Sample.stateOver .empty) l
        (.error (preconditionFailed "Identity state differs from expected state")) t ∧
      (∀ a ∈ l, IsPut a.request → ∃ err, a.answer = .error err) ∧
      (∀ a ∈ l, KadAnswers Sample.runtime Sample.node a.request a.before a.after) ∧
      LMDBDatastore.empty.get .identity Sample.identityKey = none ∧
      t.durable.get .identity Sample.identityKey = some Sample.identityGenesis := by
  obtain ⟨hraises, hhead⟩ : (run (Sample.caching Sample.identityGenesis)
        (putSignedIdentityRecordIfCurrent Sample.runtime Sample.node (toHex Sample.identityKey)
          Sample.upgrade (Sample.stateHash Sample.legacyIdentity) 1)
        (Sample.stateOver .empty)).1 =
        .error (preconditionFailed "Identity state differs from expected state") ∧
      (run (Sample.caching Sample.identityGenesis)
        (putSignedIdentityRecordIfCurrent Sample.runtime Sample.node (toHex Sample.identityKey)
          Sample.upgrade (Sample.stateHash Sample.legacyIdentity) 1)
        (Sample.stateOver .empty)).2.durable.get .identity Sample.identityKey =
        some Sample.identityGenesis := by
    decide +kernel
  have hruns := runs_run
    (fun q s r s' => (r, s') = Sample.caching Sample.identityGenesis q s)
    (Sample.caching Sample.identityGenesis) (fun _ _ => rfl)
    (putSignedIdentityRecordIfCurrent Sample.runtime Sample.node (toHex Sample.identityKey)
      Sample.upgrade (Sample.stateHash Sample.legacyIdentity) 1) (Sample.stateOver .empty)
  rw [hraises] at hruns
  obtain ⟨l, hl⟩ := hruns.traced
  refine ⟨l, _, hl, fun a ha hput => ?_, fun a ha => ?_, rfl, hhead⟩
  · have hanswer := hl.answered a ha
    rw [Sample.caching_of_isPut hput] at hanswer
    exact Sample.unwritable_raises hput hanswer
  · have hafter : a.after = _ := congrArg Prod.snd (hl.answered a ha)
    rw [hafter]
    exact Sample.caching_kadAnswers _ _ _

end DecentRegistry
