import Mathlib.Logic.Relation

/-!
# Coroutines

A coroutine over a state `σ` computes in atomic blocks and suspends at requests, each of which the
environment answers or fails; it returns or raises. This module has

* the lawful monad of coroutines, with `attempt` for handling exceptions;
* `Runs`, the runs of one coroutine, between whose blocks the environment moves the state as a
  relation allows, and `run`, which computes the run for given answers, with a lemma for each
  construct that says when it returns (`run_bind_eq_ok`);
* `wp`, weakest preconditions relative to a `Contract`: what the coroutine may rely on while it is
  suspended, and what it guarantees of each of its own blocks (`Runs.sound`);
* `Ensures`, the case of a coroutine that relies on nothing: its blocks keep a relation and its
  results have a property, whatever the environment does.
-/

namespace DecentRegistry.Coroutine

/-- Coroutines with requests `Q`, answers `A`, exceptions `ε` and results `α`. -/
inductive Coro (σ Q : Type) (A : Q → Type) (ε α : Type)
  | ret (a : α)
  | raise (e : ε)
  | atomic (act : σ → σ) (next : σ → Coro σ Q A ε α)
  | await (q : Q) (resume : Except ε (A q) → Coro σ Q A ε α)

variable {σ Q : Type} {A : Q → Type} {ε α β : Type}

namespace Coro

def bind (p : Coro σ Q A ε α) (f : α → Coro σ Q A ε β) : Coro σ Q A ε β :=
  match p with
  | .ret a => f a
  | .raise e => .raise e
  | .atomic act next => .atomic act fun s => (next s).bind f
  | .await q resume => .await q fun r => (resume r).bind f

instance : Monad (Coro σ Q A ε) where
  pure := .ret
  bind := bind

theorem bind_ret (p : Coro σ Q A ε α) : p.bind .ret = p := by
  induction p with
  | ret a => rfl
  | raise e => rfl
  | atomic act next ih => exact congrArg (Coro.atomic act) (funext ih)
  | await q resume ih => exact congrArg (Coro.await q) (funext ih)

theorem bind_bind {γ : Type} (p : Coro σ Q A ε α) (f : α → Coro σ Q A ε β)
    (g : β → Coro σ Q A ε γ) : (p.bind f).bind g = p.bind fun a => (f a).bind g := by
  induction p with
  | ret a => rfl
  | raise e => rfl
  | atomic act next ih => exact congrArg (Coro.atomic act) (funext ih)
  | await q resume ih => exact congrArg (Coro.await q) (funext ih)

instance : LawfulMonad (Coro σ Q A ε) :=
  .mk' _ bind_ret (fun _ _ => rfl) bind_bind

/-- The outcome of a coroutine as a value. -/
def attempt : Coro σ Q A ε α → Coro σ Q A ε (Except ε α)
  | .ret a => .ret (.ok a)
  | .raise e => .ret (.error e)
  | .atomic act next => .atomic act fun s => (next s).attempt
  | .await q resume => .await q fun r => (resume r).attempt

def ofExcept : Except ε α → Coro σ Q A ε α
  | .ok a => .ret a
  | .error e => .raise e

instance : MonadLift (Except ε) (Coro σ Q A ε) where
  monadLift := ofExcept

/-- `try: p except e: handler(e)`. -/
def orHandle (p : Coro σ Q A ε α) (handler : ε → Coro σ Q A ε α) : Coro σ Q A ε α := do
  match ← p.attempt with
  | .ok a => return a
  | .error e => handler e

/-- `try: p finally: cleanup`. -/
def andFinally (p : Coro σ Q A ε α) (cleanup : Coro σ Q A ε Unit) : Coro σ Q A ε α := do
  let outcome ← p.attempt
  cleanup
  ofExcept outcome

/-- One atomic block. -/
def transact (f : σ → Except ε α × σ) : Coro σ Q A ε α :=
  .atomic (fun s => (f s).2) fun s => ofExcept (f s).1

/-- Read the state. -/
def reads (f : σ → α) : Coro σ Q A ε α := transact fun s => (.ok (f s), s)

/-- Change the state. -/
def modify (f : σ → σ) : Coro σ Q A ε Unit := transact fun s => (.ok (), f s)

/-- Suspend until the environment answers. -/
def request (q : Q) : Coro σ Q A ε (A q) := .await q ofExcept

end Coro

open Coro

/-! ## Runs -/

/-- The runs of a coroutine from a state, with outcome and last state. `rely q s r t` says that the
environment may answer `r` to the request `q` and have moved the state from `s` to `t` by then. -/
inductive Runs (rely : (q : Q) → σ → Except ε (A q) → σ → Prop) :
    Coro σ Q A ε α → σ → Except ε α → σ → Prop
  | ret {a : α} {s : σ} : Runs rely (.ret a) s (.ok a) s
  | raise {e : ε} {s : σ} : Runs rely (.raise e) s (.error e) s
  | atomic {act : σ → σ} {next : σ → Coro σ Q A ε α} {s t : σ} {x : Except ε α}
      (h : Runs rely (next s) (act s) x t) : Runs rely (.atomic act next) s x t
  | await {q : Q} {resume : Except ε (A q) → Coro σ Q A ε α} {r : Except ε (A q)} {s s' t : σ}
      {x : Except ε α} (hr : rely q s r s') (h : Runs rely (resume r) s' x t) :
      Runs rely (.await q resume) s x t

/-- The run in which every request has a given answer, and moves the state in a given way. -/
def run (answer : (q : Q) → σ → Except ε (A q) × σ) : Coro σ Q A ε α → σ → Except ε α × σ
  | .ret a, s => (.ok a, s)
  | .raise e, s => (.error e, s)
  | .atomic act next, s => run answer (next s) (act s)
  | .await q resume, s => run answer (resume (answer q s).1) (answer q s).2

theorem runs_run (rely : (q : Q) → σ → Except ε (A q) → σ → Prop)
    (answer : (q : Q) → σ → Except ε (A q) × σ)
    (h : ∀ q s, rely q s (answer q s).1 (answer q s).2) (p : Coro σ Q A ε α) (s : σ) :
    Runs rely p s (run answer p s).1 (run answer p s).2 := by
  induction p generalizing s with
  | ret a => exact .ret
  | raise e => exact .raise
  | atomic act next ih => exact .atomic (ih s (act s))
  | await q resume ih => exact .await (h q s) (ih (answer q s).1 (answer q s).2)

/-! ## Computed runs -/

section Computed

variable {answer : (q : Q) → σ → Except ε (A q) × σ} {p : Coro σ Q A ε α} {s t u : σ}

theorem run_bind {f : α → Coro σ Q A ε β} :
    run answer (p >>= f) s = match run answer p s with
      | (.ok a, t) => run answer (f a) t
      | (.error e, t) => (.error e, t) := by
  induction p generalizing s with
  | ret a => rfl
  | raise e => rfl
  | atomic act next ih => exact ih _
  | await q resume ih => exact ih _

theorem run_attempt : run answer p.attempt s = (.ok (run answer p s).1, (run answer p s).2) := by
  induction p generalizing s with
  | ret a => rfl
  | raise e => rfl
  | atomic act next ih => exact ih _
  | await q resume ih => exact ih _

/-- A sequence returns where both parts do. -/
theorem run_bind_eq_ok {f : α → Coro σ Q A ε β} {b : β} :
    run answer (p >>= f) s = (.ok b, u) ↔
      ∃ a t, run answer p s = (.ok a, t) ∧ run answer (f a) t = (.ok b, u) := by
  rw [run_bind]
  rcases run answer p s with ⟨_ | a, t⟩
  · simp
  · constructor
    · exact fun h => ⟨a, t, rfl, h⟩
    · rintro ⟨_, _, h, h'⟩
      cases h
      exact h'

theorem run_pure_eq_ok {a b : α} :
    run answer (pure a : Coro σ Q A ε α) s = (.ok b, t) ↔ a = b ∧ s = t := by
  simp [run, pure]

theorem run_raise_eq_ok {e : ε} {b : α} :
    run answer (.raise e : Coro σ Q A ε α) s = (.ok b, t) ↔ False := by
  simp [run]

theorem run_ofExcept {x : Except ε α} :
    run answer (Coro.ofExcept x : Coro σ Q A ε α) s = (x, s) := by
  cases x <;> rfl

theorem run_lift {x : Except ε α} : run answer (liftM x : Coro σ Q A ε α) s = (x, s) :=
  run_ofExcept

theorem run_lift_eq_ok {x : Except ε α} {b : α} :
    run answer (liftM x : Coro σ Q A ε α) s = (.ok b, t) ↔ x = .ok b ∧ s = t := by
  rw [run_lift, Prod.mk.injEq]

theorem run_transact {f : σ → Except ε α × σ} :
    run answer (transact f : Coro σ Q A ε α) s = f s := by
  change run answer (Coro.ofExcept (f s).1) (f s).2 = f s
  rw [run_ofExcept]

theorem run_reads_eq_ok {f : σ → α} {b : α} :
    run answer (reads f : Coro σ Q A ε α) s = (.ok b, t) ↔ f s = b ∧ s = t := by
  simp [reads, run_transact]

theorem run_modify_eq_ok {f : σ → σ} {x : Unit} :
    run answer (Coro.modify f : Coro σ Q A ε Unit) s = (.ok x, t) ↔ f s = t := by
  simp [Coro.modify, run_transact]

theorem run_request {q : Q} : run answer (request q : Coro σ Q A ε (A q)) s = answer q s := by
  change run answer (Coro.ofExcept (answer q s).1) (answer q s).2 = answer q s
  rw [run_ofExcept]

theorem run_orHandle {handler : ε → Coro σ Q A ε α} :
    run answer (p.orHandle handler) s = match run answer p s with
      | (.ok a, t) => (.ok a, t)
      | (.error e, t) => run answer (handler e) t := by
  rw [orHandle, run_bind, run_attempt]
  rcases run answer p s with ⟨_ | a, t⟩ <;> rfl

theorem run_andFinally_eq_ok {cleanup : Coro σ Q A ε Unit} {b : α} :
    run answer (p.andFinally cleanup) s = (.ok b, u) ↔
      ∃ t, run answer p s = (.ok b, t) ∧ run answer cleanup t = (.ok (), u) := by
  simp only [andFinally, run_bind_eq_ok, run_attempt, Prod.mk.injEq, Except.ok.injEq]
  constructor
  · rintro ⟨x, t, ⟨rfl, rfl⟩, ⟨⟩, t', hcleanup, h⟩
    rw [run_ofExcept] at h
    obtain ⟨hb, rfl⟩ := Prod.mk.inj h
    exact ⟨_, Prod.ext hb rfl, hcleanup⟩
  · rintro ⟨t, hp, hcleanup⟩
    exact ⟨.ok b, t, by simp [hp], (), u, hcleanup, run_ofExcept⟩

end Computed

/-! ## Weakest preconditions -/

/-- What a coroutine relies on while it is suspended, and what it guarantees of its own blocks. -/
structure Contract (σ Q : Type) (A : Q → Type) (ε : Type) where
  rely : (q : Q) → σ → Except ε (A q) → σ → Prop
  guarantee : σ → σ → Prop

/-- From this state every block keeps the guarantee and every outcome satisfies `Φ`. -/
def wp (c : Contract σ Q A ε) : Coro σ Q A ε α → (Except ε α → σ → Prop) → σ → Prop
  | .ret a, Φ, s => Φ (.ok a) s
  | .raise e, Φ, s => Φ (.error e) s
  | .atomic act next, Φ, s => c.guarantee s (act s) ∧ wp c (next s) Φ (act s)
  | .await q resume, Φ, s => ∀ r t, c.rely q s r t → wp c (resume r) Φ t

variable {c : Contract σ Q A ε} {s : σ}

/-- **Soundness.** -/
theorem Runs.sound {p : Coro σ Q A ε α} {Φ : Except ε α → σ → Prop} {x : Except ε α} {t : σ}
    (h : Runs c.rely p s x t) (hp : wp c p Φ s) : Φ x t := by
  induction h with
  | ret => exact hp
  | raise => exact hp
  | atomic _ ih => exact ih hp.2
  | await hr _ ih => exact ih (hp _ _ hr)

theorem wp_mono {p : Coro σ Q A ε α} {Φ Ψ : Except ε α → σ → Prop} (hp : wp c p Φ s)
    (h : ∀ x t, Φ x t → Ψ x t) : wp c p Ψ s := by
  induction p generalizing s with
  | ret a => exact h _ _ hp
  | raise e => exact h _ _ hp
  | atomic act next ih => exact ⟨hp.1, ih _ hp.2⟩
  | await q resume ih => exact fun r t hr => ih _ (hp r t hr)

theorem wp_and {p : Coro σ Q A ε α} {Φ Ψ : Except ε α → σ → Prop} (hΦ : wp c p Φ s)
    (hΨ : wp c p Ψ s) : wp c p (fun x t => Φ x t ∧ Ψ x t) s := by
  induction p generalizing s with
  | ret a => exact ⟨hΦ, hΨ⟩
  | raise e => exact ⟨hΦ, hΨ⟩
  | atomic act next ih => exact ⟨hΦ.1, ih _ hΦ.2 hΨ.2⟩
  | await q resume ih => exact fun r t hr => ih _ (hΦ r t hr) (hΨ r t hr)

@[simp] theorem wp_pure {a : α} {Φ : Except ε α → σ → Prop} :
    wp c (pure a : Coro σ Q A ε α) Φ s ↔ Φ (.ok a) s := Iff.rfl

@[simp] theorem wp_ret {a : α} {Φ : Except ε α → σ → Prop} :
    wp c (.ret a : Coro σ Q A ε α) Φ s ↔ Φ (.ok a) s := Iff.rfl

@[simp] theorem wp_raise {e : ε} {Φ : Except ε α → σ → Prop} :
    wp c (.raise e : Coro σ Q A ε α) Φ s ↔ Φ (.error e) s := Iff.rfl

@[simp] theorem wp_ofExcept {x : Except ε α} {Φ : Except ε α → σ → Prop} :
    wp c (ofExcept x : Coro σ Q A ε α) Φ s ↔ Φ x s := by
  cases x <;> rfl

@[simp] theorem wp_lift {x : Except ε α} {Φ : Except ε α → σ → Prop} :
    wp c (liftM x : Coro σ Q A ε α) Φ s ↔ Φ x s := wp_ofExcept

theorem wp_bind {p : Coro σ Q A ε α} {f : α → Coro σ Q A ε β} {Φ : Except ε β → σ → Prop} :
    wp c (p >>= f) Φ s ↔ wp c p (fun x t => match x with
      | .ok a => wp c (f a) Φ t
      | .error e => Φ (.error e) t) s := by
  induction p generalizing s with
  | ret a => rfl
  | raise e => rfl
  | atomic act next ih => exact and_congr_right fun _ => ih _
  | await q resume ih =>
    exact forall_congr' fun r => forall_congr' fun t => imp_congr_right fun _ => ih r

/-- Sequencing: the second part starts from where the first returns. -/
theorem wp_bind_of {p : Coro σ Q A ε α} {f : α → Coro σ Q A ε β} {Ψ : Except ε α → σ → Prop}
    {Φ : Except ε β → σ → Prop} (hp : wp c p Ψ s)
    (error : ∀ e t, Ψ (.error e) t → Φ (.error e) t)
    (ok : ∀ a t, Ψ (.ok a) t → wp c (f a) Φ t) : wp c (p >>= f) Φ s := by
  refine wp_bind.2 (wp_mono hp fun x t hx => ?_)
  cases x with
  | ok a => exact ok a t hx
  | error e => exact error e t hx

@[simp] theorem wp_attempt {p : Coro σ Q A ε α} {Φ : Except ε (Except ε α) → σ → Prop} :
    wp c p.attempt Φ s ↔ wp c p (fun x => Φ (.ok x)) s := by
  induction p generalizing s with
  | ret a => rfl
  | raise e => rfl
  | atomic act next ih => exact and_congr_right fun _ => ih _
  | await q resume ih =>
    exact forall_congr' fun r => forall_congr' fun t => imp_congr_right fun _ => ih r

@[simp] theorem wp_orHandle {p : Coro σ Q A ε α} {handler : ε → Coro σ Q A ε α}
    {Φ : Except ε α → σ → Prop} :
    wp c (p.orHandle handler) Φ s ↔ wp c p (fun x t => match x with
      | .ok a => Φ (.ok a) t
      | .error e => wp c (handler e) Φ t) s := by
  rw [orHandle, wp_bind, wp_attempt]
  refine ⟨fun h => wp_mono h ?_, fun h => wp_mono h ?_⟩ <;> rintro (e | a) t h <;> exact h

@[simp] theorem wp_andFinally {p : Coro σ Q A ε α} {cleanup : Coro σ Q A ε Unit}
    {Φ : Except ε α → σ → Prop} :
    wp c (p.andFinally cleanup) Φ s ↔
      wp c p (fun x t => wp c cleanup (fun y t => match y with
        | .ok _ => Φ x t
        | .error e => Φ (.error e) t) t) s := by
  simp only [andFinally, wp_bind, wp_attempt]
  refine ⟨fun h => wp_mono h ?_, fun h => wp_mono h ?_⟩ <;> intro x t h <;>
    refine wp_mono h ?_ <;> rintro (e | u) t h
  all_goals simpa using h

@[simp] theorem wp_transact {f : σ → Except ε α × σ} {Φ : Except ε α → σ → Prop} :
    wp c (transact f : Coro σ Q A ε α) Φ s ↔ c.guarantee s (f s).2 ∧ Φ (f s).1 (f s).2 := by
  simp [transact, wp]

@[simp] theorem wp_reads {f : σ → α} {Φ : Except ε α → σ → Prop} :
    wp c (reads f : Coro σ Q A ε α) Φ s ↔ c.guarantee s s ∧ Φ (.ok (f s)) s := wp_transact

@[simp] theorem wp_modify {f : σ → σ} {Φ : Except ε Unit → σ → Prop} :
    wp c (modify f : Coro σ Q A ε Unit) Φ s ↔ c.guarantee s (f s) ∧ Φ (.ok ()) (f s) := wp_transact

@[simp] theorem wp_request {q : Q} {Φ : Except ε (A q) → σ → Prop} :
    wp c (request q : Coro σ Q A ε (A q)) Φ s ↔ ∀ r t, c.rely q s r t → Φ r t := by
  simp [request, wp]

/-! ## Relying on nothing -/

variable {G G' : σ → σ → Prop} {p : Coro σ Q A ε α} {Φ Ψ : α → Prop}

/-- Whatever the environment does, every block keeps `G` and every value returned satisfies `Φ`. -/
def Ensures (G : σ → σ → Prop) (p : Coro σ Q A ε α) (Φ : α → Prop) : Prop :=
  ∀ s, wp ⟨fun _ _ _ _ => True, G⟩ p (fun x _ => ∀ a, x = .ok a → Φ a) s

namespace Ensures

theorem weaken (h : Ensures G p Φ) (hG : ∀ s t, G s t → G' s t) : Ensures G' p Φ := by
  intro s
  have key (p : Coro σ Q A ε α) (s : σ)
      (hp : Coroutine.wp ⟨fun _ _ _ _ => True, G⟩ p (fun x _ => ∀ a, x = .ok a → Φ a) s) :
      Coroutine.wp ⟨fun _ _ _ _ => True, G'⟩ p (fun x _ => ∀ a, x = .ok a → Φ a) s := by
    induction p generalizing s with
    | ret a => exact hp
    | raise e => exact hp
    | atomic act next ih => exact ⟨hG _ _ hp.1, ih _ _ hp.2⟩
    | await q resume ih => exact fun r t hr => ih r t (hp r t hr)
  exact key p s (h s)

theorem pure {a : α} (h : Φ a) : Ensures G (pure a : Coro σ Q A ε α) Φ := by
  rintro s b hb
  obtain rfl := Except.ok.inj hb
  exact h

theorem raise {e : ε} : Ensures G (.raise e : Coro σ Q A ε α) Φ := by
  rintro s b hb
  cases hb

theorem lift {x : Except ε α} (h : ∀ a, x = .ok a → Φ a) :
    Ensures G (liftM x : Coro σ Q A ε α) Φ := fun _ => wp_lift.2 h

theorem bind {f : α → Coro σ Q A ε β} {Θ : β → Prop} (hp : Ensures G p Φ)
    (hf : ∀ a, Φ a → Ensures G (f a) Θ) : Ensures G (p >>= f) Θ := by
  intro s
  refine wp_bind_of (hp s) (fun e t _ b hb => ?_) (fun a t ha => hf a (ha a rfl) t)
  cases hb

/-- `if b: p`, and then the rest. -/
theorem when {b : Prop} {_ : Decidable b} {p : Coro σ Q A ε Unit} {f : Unit → Coro σ Q A ε β}
    {Θ : β → Prop} (hp : b → Ensures G p fun _ => True) (hf : ∀ u, Ensures G (f u) Θ) :
    Ensures G (if b then p >>= f else f ()) Θ := by
  split
  · exact bind (hp ‹_›) fun u _ => hf u
  · exact hf ()

theorem request {q : Q} : Ensures G (request q : Coro σ Q A ε (A q)) fun _ => True := by
  intro s
  simp

theorem transact {f : σ → Except ε α × σ} (hG : ∀ s, G s (f s).2)
    (h : ∀ s a, (f s).1 = .ok a → Φ a) : Ensures G (transact f : Coro σ Q A ε α) Φ :=
  fun s => wp_transact.2 ⟨hG s, h s⟩

theorem reads {f : σ → α} (hG : ∀ s, G s s) (h : ∀ s, Φ (f s)) :
    Ensures G (reads f : Coro σ Q A ε α) Φ :=
  transact hG fun s _ ha => Except.ok.inj ha ▸ h s

theorem modify {f : σ → σ} (hG : ∀ s, G s (f s)) :
    Ensures G (modify f : Coro σ Q A ε Unit) fun _ => True :=
  transact hG fun _ _ _ => trivial

theorem orHandle {handler : ε → Coro σ Q A ε α} (hp : Ensures G p Φ)
    (hh : ∀ e, Ensures G (handler e) Φ) : Ensures G (p.orHandle handler) Φ := by
  refine fun s => wp_orHandle.2 (wp_mono (hp s) ?_)
  rintro (e | a) t h
  · exact hh e t
  · exact h

theorem andFinally {cleanup : Coro σ Q A ε Unit} (hp : Ensures G p Φ)
    (hc : Ensures G cleanup fun _ => True) : Ensures G (p.andFinally cleanup) Φ := by
  refine fun s => wp_andFinally.2 (wp_mono (hp s) fun x t hx => wp_mono (hc t) ?_)
  rintro (e | u) t' -
  · intro a ha
    cases ha
  · exact hx

/-- In a contract whose guarantee allows the blocks, and within a relation that the blocks and the
environment keep. -/
theorem wp {I : σ → σ → Prop} (h : Ensures G p Φ) (refl : ∀ s, I s s)
    (trans : ∀ r s t, I r s → I s t → I r t) (block : ∀ s t, G s t → c.guarantee s t ∧ I s t)
    (rely : ∀ q s r t, c.rely q s r t → I s t) (s : σ) :
    wp c p (fun x t => I s t ∧ ∀ a, x = .ok a → Φ a) s := by
  have key (p : Coro σ Q A ε α) (s s' : σ) (hs : I s s')
      (hp : Coroutine.wp ⟨fun _ _ _ _ => True, G⟩ p (fun x _ => ∀ a, x = .ok a → Φ a) s') :
      Coroutine.wp c p (fun x t => I s t ∧ ∀ a, x = .ok a → Φ a) s' := by
    induction p generalizing s' with
    | ret a => exact ⟨hs, hp⟩
    | raise e => exact ⟨hs, hp⟩
    | atomic act next ih =>
      obtain ⟨hguarantee, hI⟩ := block _ _ hp.1
      exact ⟨hguarantee, ih _ _ (trans _ _ _ hs hI) hp.2⟩
    | await q resume ih =>
      exact fun r t hr => ih r t (trans _ _ _ hs (rely _ _ _ _ hr)) (hp r t trivial)
  exact key p s s (refl s) (h s)

end Ensures

end DecentRegistry.Coroutine
