import DecentRegistry.Dht.Quiet
import DecentRegistry.Foundations.Requests

/-!
# What a read of the DHT caches

`KadDHT.get_value` puts what it finds into the value store, where the hooks accept it like a value
that a peer put; `KadDHT.put_value` runs under `_local_dht_write`, and the hooks accept nothing. So
where the blocks of a call leave the durable store alone, and nobody else writes, all that changes
in the store is what `get_value` put there (`Cached`). -/

namespace DecentRegistry

open Fallible PyValue Coroutine

variable {rt : Runtime} {d : DhtInstance} {α β : Type}
  {rely : (q : Request) → DhtState → Py q.Answer → DhtState → Prop} {s t u : DhtState}

/-- The requests of a run. -/
abbrev Trace := List (Asked DhtState Request Request.Answer PyError)

/-- The state has changed by what `get_value` puts into the value store, if the durable store has
changed at all. -/
abbrev Cached (rt : Runtime) (d : DhtInstance) : DhtState → DhtState → Prop :=
  Relation.ReflTransGen (KadStep rt d false none)

theorem cached_of_sameDurable (h : SameDurable s t) : Cached rt d s t := .single (.elsewhere h)

/-- Under `_local_dht_write` the hooked `put` accepts nothing. -/
theorem KadStep.sameDurable {pending : Option IdentityWriteContext}
    (h : KadStep rt d true pending s t) : SameDurable s t := by
  cases h with
  | @put key value x h =>
    have hput : valueStorePut rt d true pending key value =
        (originalPut key value >>= fun _ => pure ()) := by
      simp [valueStorePut, prepareDurableAcceptance, commitDurableAcceptance]
    rw [hput] at h
    obtain ⟨l, hl⟩ := h.traced
    obtain ⟨-, -, rfl⟩ := hl.modify_bind_inv.pure_inv
    rfl
  | elsewhere h => exact h

/-- **What an answer does to the durable store**, `get_value` caches. -/
theorem KadAnswers.cached {q : Request} (h : KadAnswers rt d q s t) : Cached rt d s t := by
  cases q with
  | getValue => exact h
  | putValue _ _ context =>
    have hstep (s t : DhtState) (h : KadStep rt d true context s t) : KadStep rt d false none s t :=
      .elsewhere h.sameDurable
    exact Relation.ReflTransGen.mono hstep _ _ h
  | acceptedLock => exact cached_of_sameDurable h
  | readerEnvelope => exact cached_of_sameDurable h
  | peerEnvelope => exact cached_of_sameDurable h
  | peerHistory => exact cached_of_sameDurable h

/-- A run whose blocks leave the durable store alone. -/
theorem cached_of_between {l : Trace} (h : Between SameDurable s l t)
    (answers : ∀ a ∈ l, KadAnswers rt d a.request a.before a.after) : Cached rt d s t :=
  (h.mono fun _ _ => cached_of_sameDurable).keeps (fun _ _ _ => .trans)
    fun a ha => (answers a ha).cached

/-- A quiet first part raises, or the rest runs after it. -/
theorem quiet_bind {p : Dht α} {f : α → Dht β} {Φ : α → Prop} {l : Trace} {x : Py β}
    (hquiet : Quiet p Φ) (h : Traced rely (p >>= f) s l x t) :
    (∃ e, x = .error e ∧ Between SameDurable s l t) ∨
      ∃ a v l₁ l₂, Traced rely p s l₁ (.ok a) v ∧ Φ a ∧ Between SameDurable s l₁ v ∧
        Traced rely (f a) v l₂ x t ∧ l = l₁ ++ l₂ := by
  rcases h.bind_inv with ⟨a, v, l₁, l₂, hp, hf, rfl⟩ | ⟨e, rfl, hp⟩
  · obtain ⟨hbetween, ha⟩ := hp.ensured hquiet sameDurable_refl sameDurable_trans
    exact .inr ⟨a, v, l₁, l₂, hp, ha a rfl, hbetween, hf, rfl⟩
  · exact .inl ⟨e, rfl, (hp.ensured hquiet sameDurable_refl sameDurable_trans).1⟩

/-- The lock is not given, or the rest runs under it. -/
theorem withAcceptedLock_inv {p : Dht α} {l : Trace} {x : Py α}
    (h : Traced rely (withAcceptedLock p) s l x t) :
    (∃ e, x = .error e ∧ l = [⟨.acceptedLock, s, .error e, t⟩]) ∨
      ∃ v l', l = ⟨.acceptedLock, s, .ok (), v⟩ :: l' ∧
        ∃ u, Traced rely p v l' x u ∧ SameDurable u t := by
  rcases h.bind_inv with ⟨_, v, l₁, l₂, hlock, hbody, rfl⟩ | ⟨e, he, hlock⟩
  · obtain ⟨rfl, -⟩ := hlock.request_inv
    obtain ⟨u, hp, rfl⟩ := hbody.andFinally_modify_inv
    exact .inr ⟨v, l₂, rfl, u, hp, rfl⟩
  · exact .inl ⟨e, he, hlock.request_inv.1⟩

end DecentRegistry
