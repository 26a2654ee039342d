import DecentRegistry.Dht.Quiet
import DecentRegistry.Model.Dht.Calls

/-!
# What a call leaves in the durable store

A call on its own reads the durable store it was made over, and then writes at most one head
(`Replaces`). Two judgments follow a call through its reads to its write:

* `Finds`, for the part before the write: the store stays as it is, and what is returned is known;
* `Leaves`, for the whole: what the store satisfies at the end.

Both hold whatever the environment answers, within what a contract relies on, as long as it leaves
the durable store alone (`Undisturbed`). -/

namespace DecentRegistry

open Fallible PyValue Coroutine LMDBDatastore

variable {rt : Runtime} {d : DhtInstance}

/-! ## Replacing one head -/

/-- At most the head of one key differs, and if it does it is the given value. -/
def Replaces (kind : RecordKind) (key value : Bytes) (s t : LMDBDatastore) : Prop :=
  ∀ kind' key', t.get kind' key' = s.get kind' key' ∨
    kind' = kind ∧ key' = key ∧ t.get kind' key' = some value

variable {kind : RecordKind} {key value : Bytes}

theorem replaces_refl (s : LMDBDatastore) : Replaces kind key value s s := fun _ _ => .inl rfl

theorem replaces_trans (r s t : LMDBDatastore) (h : Replaces kind key value r s)
    (h' : Replaces kind key value s t) : Replaces kind key value r t := by
  intro kind' key'
  rcases h' kind' key' with h' | h'
  · rw [h']
    exact h kind' key'
  · exact .inr h'

theorem replaces_of_same {s t : DhtState} (h : SameDurable s t) :
    Replaces kind key value s.durable t.durable := by
  rw [show t.durable = s.durable from h]
  exact replaces_refl _

/-- A method that writes at most one head. -/
abbrev Writes (kind : RecordKind) (key value : Bytes) (p : Dht Unit) : Prop :=
  Ensures (fun s t => Replaces kind key value s.durable t.durable) p fun _ => True

theorem storePut_writes : Writes kind key value (storePut kind key value) := by
  refine .modify fun s kind' key' => ?_
  rw [get_put]
  split
  · rename_i hsame
    exact .inr ⟨hsame.1, hsame.2, rfl⟩
  · exact .inl rfl

theorem storePutIfNewer_writes {w : AcceptedWrite} :
    Ensures (fun s t => Replaces w.kind w.key w.value s.durable t.durable) (storePutIfNewer rt w)
      fun _ => True := by
  refine .transact (fun s => ?_) fun _ _ _ => trivial
  split
  · rename_i accepted t hput
    obtain ⟨m, encodedHistory, -, rfl, rfl⟩ := putIfNewer_eq_ok.1 hput
    dsimp only
    split
    · intro kind' key'
      rw [get_install]
      split
      · rename_i hsame
        exact .inr ⟨hsame.1, hsame.2, rfl⟩
      · exact .inl rfl
    · exact replaces_refl _
  · exact replaces_refl _

theorem installAccepted_writes {backend : StorageBackend} {result : ResultAttributes}
    {history : Option (List Bytes)} :
    Writes kind key value (installAccepted rt d backend kind key value result history) := by
  have hread : Ensures (fun s t => Replaces kind key value s.durable t.durable)
      (durableGet d kind key) fun _ => True :=
    (durableGet_quiet _ _).weaken fun _ _ => replaces_of_same
  refine .bind hread fun current _ => ?_
  split
  · exact .pure trivial
  · refine .bind (.lift fun _ _ => trivial) ?_
    rintro ⟨seq, stateHash⟩ -
    dsimp only
    split
    · exact storePut_writes
    · refine .bind storePutIfNewer_writes fun accepted _ => ?_
      split
      · refine .bind hread fun current' _ => ?_
        split
        · exact .pure trivial
        · exact .raise
      · exact .pure trivial

theorem durableInstall_writes {result : ResultAttributes} {history : Option (List Bytes)} :
    Writes kind key value (durableInstall rt d kind key value result history) := by
  unfold durableInstall
  refine .when (fun _ => .lift fun _ _ => trivial) fun _ => ?_
  split
  · exact .pure trivial
  · exact installAccepted_writes

theorem durableCache_writes {result : ResultAttributes} {history : Option (List Bytes)} :
    Writes kind key value (durableCache rt d kind key value result history) := by
  unfold durableCache
  split
  · exact .pure trivial
  · refine .bind (.lift fun _ _ => trivial) ?_
    rintro ⟨seq, stateHash⟩ -
    dsimp only
    split
    · exact storePut_writes
    · exact .bind storePutIfNewer_writes fun _ _ => .pure trivial

/-! ## Reading, then writing -/

/-- The environment leaves the durable store alone; the method itself may do what it likes. -/
structure Undisturbed (c : Contract DhtState Request Request.Answer PyError) : Prop where
  durable : ∀ q s r t, c.rely q s r t → SameDurable s t
  free : ∀ s t, c.guarantee s t

variable {c : Contract DhtState Request Request.Answer PyError} {α β : Type} {D : LMDBDatastore}

/-- Over the store `D`, which it does not change, the method returns what satisfies `Φ`. -/
def Finds (c : Contract DhtState Request Request.Answer PyError) (D : LMDBDatastore) (p : Dht α)
    (Φ : α → Prop) : Prop :=
  ∀ s, s.durable = D → wp c p (fun x t => t.durable = D ∧ ∀ a, x = .ok a → Φ a) s

/-- Over the store `D` the method ends in a store that satisfies `Post`. -/
def Leaves (c : Contract DhtState Request Request.Answer PyError) (D : LMDBDatastore) (p : Dht α)
    (Post : LMDBDatastore → Prop) : Prop :=
  ∀ s, s.durable = D → wp c p (fun _ t => Post t.durable) s

variable {p : Dht α} {Φ : α → Prop}

theorem Quiet.finds (h : Quiet p Φ) (hc : Undisturbed c) : Finds c D p Φ := by
  rintro s rfl
  exact h.wp sameDurable_refl sameDurable_trans (fun _ _ h => ⟨hc.free _ _, h⟩) hc.durable s

namespace Finds

theorem mono {Θ : α → Prop} (h : Finds c D p Φ) (hΦ : ∀ a, Φ a → Θ a) : Finds c D p Θ :=
  fun s hs => wp_mono (h s hs) fun _ _ hx => ⟨hx.1, fun a ha => hΦ a (hx.2 a ha)⟩

theorem and {Θ : α → Prop} (h : Finds c D p Φ) (h' : Finds c D p Θ) :
    Finds c D p fun a => Φ a ∧ Θ a :=
  fun s hs => wp_mono (wp_and (h s hs) (h' s hs)) fun _ _ hx =>
    ⟨hx.1.1, fun a ha => ⟨hx.1.2 a ha, hx.2.2 a ha⟩⟩

theorem pure {a : α} (h : Φ a) : Finds c D (pure a : Dht α) Φ := by
  rintro s rfl
  refine ⟨rfl, fun b hb => ?_⟩
  obtain rfl := Except.ok.inj hb
  exact h

theorem raise {e : PyError} : Finds c D (.raise e : Dht α) Φ := by
  rintro s rfl
  exact ⟨rfl, fun b hb => by cases hb⟩

theorem lift {x : Py α} (h : ∀ a, x = .ok a → Φ a) : Finds c D (liftM x : Dht α) Φ := by
  rintro s rfl
  exact wp_lift.2 ⟨rfl, h⟩

theorem bind {f : α → Dht β} {Θ : β → Prop} (hp : Finds c D p Φ)
    (hf : ∀ a, Φ a → Finds c D (f a) Θ) : Finds c D (p >>= f) Θ := by
  intro s hs
  refine wp_bind_of (hp s hs) (fun e t ht => ⟨ht.1, fun b hb => ?_⟩)
    (fun a t ht => hf a (ht.2 a rfl) t ht.1)
  cases hb

theorem orHandle {handler : PyError → Dht α} (hp : Finds c D p Φ)
    (hh : ∀ e, Finds c D (handler e) Φ) : Finds c D (p.orHandle handler) Φ := by
  refine fun s hs => wp_orHandle.2 (wp_mono (hp s hs) ?_)
  rintro (e | a) t h
  · exact hh e t h.1
  · exact h

/-- What is known of an answer is what the contract says of it. -/
theorem request {q : Request} {Ψ : q.Answer → Prop} (hc : Undisturbed c)
    (h : ∀ s a t, s.durable = D → c.rely q s (.ok a) t → Ψ a) :
    Finds c D (Coro.request q : Dht q.Answer) Ψ := by
  intro s hs
  refine wp_request.2 fun r t hr => ⟨(hc.durable _ _ _ _ hr).trans hs, ?_⟩
  rintro a rfl
  exact h s a t hs hr

theorem orOnException {handler : Dht α} (hp : Finds c D p Φ) (hh : Finds c D handler Φ) :
    Finds c D (orOnException p handler) Φ := by
  refine .orHandle hp fun e => ?_
  split
  · exact hh
  · exact .raise

theorem durableGet (hc : Undisturbed c) (hd : d.durableStore.isSome = true) (kind : RecordKind)
    (key : Bytes) : Finds c D (durableGet d kind key) (· = D.get kind key) := by
  rintro s rfl
  rw [DecentRegistry.durableGet, if_neg (by simpa [Option.isSome_iff_ne_none] using hd)]
  exact wp_reads.2 ⟨hc.free _ _, rfl, fun a ha => (Except.ok.inj ha).symm⟩

end Finds

namespace Leaves

variable {Post : LMDBDatastore → Prop}

theorem pure {a : α} (h : Post D) : Leaves c D (pure a : Dht α) Post := by
  rintro s rfl
  exact h

/-- A read, and then the rest. -/
theorem bind {f : α → Dht β} (h : Post D) (hp : Finds c D p Φ)
    (hf : ∀ a, Φ a → Leaves c D (f a) Post) : Leaves c D (p >>= f) Post := by
  refine fun s hs => wp_bind_of (hp s hs) (fun e t ht => ?_)
    (fun a t ht => hf a (ht.2 a rfl) t ht.1)
  rw [ht.1]
  exact h

/-- A read alone. -/
theorem of_finds (h : Post D) (hp : Finds c D p Φ) : Leaves c D p Post := by
  refine fun s hs => wp_mono (hp s hs) fun x t ht => ?_
  rw [ht.1]
  exact h

/-- Something that does not write, at the end. -/
theorem bind_quiet {f : α → Dht β} (hc : Undisturbed c) (hp : Leaves c D p Post)
    (hf : ∀ a, Quiet (f a) fun _ => True) : Leaves c D (p >>= f) Post := by
  refine fun s hs => wp_bind_of (hp s hs) (fun e t ht => ht) fun a t ht => ?_
  refine wp_mono ((hf a).finds hc t rfl) fun x t' ht' => ?_
  rw [ht'.1]
  exact ht

/-- `if b: p`, and then the rest, where `p` reads. -/
theorem when {b : Prop} {_ : Decidable b} {p : Dht Unit} {f : Unit → Dht β} (h : Post D)
    (hp : b → Finds c D p fun _ => True) (hf : ∀ u, Leaves c D (f u) Post) :
    Leaves c D (if b then p >>= f else f ()) Post := by
  split
  · exact bind h (hp ‹_›) fun u _ => hf u
  · exact hf ()

/-- The write. -/
theorem of_writes {p : Dht Unit} (hc : Undisturbed c) (hp : Writes kind key value p)
    (h : ∀ t, Replaces kind key value D t → Post t) : Leaves c D p Post := by
  rintro s rfl
  refine wp_mono (hp.wp (c := c) (I := fun s t => Replaces kind key value s.durable t.durable)
    (fun _ => replaces_refl _) (fun _ _ _ => replaces_trans _ _ _)
    (fun _ _ h => ⟨hc.free _ _, h⟩)
    (fun _ _ _ _ h => replaces_of_same (hc.durable _ _ _ _ h)) s) fun x t ht => h _ ht.1

theorem withAcceptedLock (hc : Undisturbed c) (h : Post D) (hp : Leaves c D p Post) :
    Leaves c D (withAcceptedLock p) Post := by
  refine bind h (Finds.request hc fun _ _ _ _ _ => trivial) fun _ _ s hs => ?_
  refine wp_andFinally.2 (wp_mono (hp s hs) fun x t ht => wp_modify.2 ⟨hc.free _ _, ht⟩)

end Leaves

end DecentRegistry
