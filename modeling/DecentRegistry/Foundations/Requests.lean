import DecentRegistry.Foundations.Coroutine

/-!
# The requests of a coroutine

What a coroutine asks of its environment:

* `Asks P p`: every request `p` makes is one of `P`, whatever the environment answers; `MayAsk q p`:
  some answers make `p` request `q`;
* `Traced`, the runs of a coroutine with the requests made on the way and their answers, with an
  inversion lemma for each construct.
-/

namespace DecentRegistry.Coroutine

open Coro

variable {σ Q : Type} {A : Q → Type} {ε α β : Type}

/-- Every request the coroutine makes is one of `P`. -/
def Asks (P : Q → Prop) : Coro σ Q A ε α → Prop
  | .ret _ | .raise _ => True
  | .atomic _ next => ∀ s, Asks P (next s)
  | .await q resume => P q ∧ ∀ r, Asks P (resume r)

/-- Some answers make the coroutine request `q`. -/
def MayAsk (q : Q) : Coro σ Q A ε α → Prop
  | .ret _ | .raise _ => False
  | .atomic _ next => ∃ s, MayAsk q (next s)
  | .await q' resume => q' = q ∨ ∃ r, MayAsk q (resume r)

variable {P P' : Q → Prop} {p : Coro σ Q A ε α}

theorem Asks.of_mayAsk {q : Q} (h : Asks P p) (hq : MayAsk q p) : P q := by
  induction p with
  | ret a => exact hq.elim
  | raise e => exact hq.elim
  | atomic act next ih =>
    obtain ⟨s, hs⟩ := hq
    exact ih s (h s) hs
  | await q' resume ih =>
    rcases hq with rfl | ⟨r, hr⟩
    · exact h.1
    · exact ih r (h.2 r) hr

namespace Asks

theorem mono (h : Asks P p) (hP : ∀ q, P q → P' q) : Asks P' p := by
  induction p with
  | ret a => trivial
  | raise e => trivial
  | atomic act next ih => exact fun s => ih s (h s)
  | await q resume ih => exact ⟨hP q h.1, fun r => ih r (h.2 r)⟩

theorem pure {a : α} : Asks P (pure a : Coro σ Q A ε α) := trivial

theorem raise {e : ε} : Asks P (.raise e : Coro σ Q A ε α) := trivial

theorem ofExcept {x : Except ε α} : Asks P (Coro.ofExcept x : Coro σ Q A ε α) := by
  cases x <;> trivial

theorem lift {x : Except ε α} : Asks P (liftM x : Coro σ Q A ε α) := ofExcept

theorem bind {f : α → Coro σ Q A ε β} (hp : Asks P p) (hf : ∀ a, Asks P (f a)) :
    Asks P (p >>= f) := by
  induction p with
  | ret a => exact hf a
  | raise e => trivial
  | atomic act next ih => exact fun s => ih s (hp s)
  | await q resume ih => exact ⟨hp.1, fun r => ih r (hp.2 r)⟩

theorem after_lift {y : Except ε α} {a : α} {f : α → Coro σ Q A ε β} (hy : y = .ok a)
    (h : Asks P (f a)) : Asks P (liftM y >>= f) := by
  subst hy
  exact h

/-- `if b: p`, and then the rest. -/
theorem when {b : Prop} {_ : Decidable b} {p : Coro σ Q A ε Unit} {f : Unit → Coro σ Q A ε β}
    (hp : Asks P p) (hf : ∀ u, Asks P (f u)) : Asks P (if b then p >>= f else f ()) := by
  split
  · exact bind hp hf
  · exact hf ()

theorem attempt (hp : Asks P p) : Asks P p.attempt := by
  induction p with
  | ret a => trivial
  | raise e => trivial
  | atomic act next ih => exact fun s => ih s (hp s)
  | await q resume ih => exact ⟨hp.1, fun r => ih r (hp.2 r)⟩

theorem orHandle {handler : ε → Coro σ Q A ε α} (hp : Asks P p) (hh : ∀ e, Asks P (handler e)) :
    Asks P (p.orHandle handler) := by
  refine bind hp.attempt fun x => ?_
  cases x with
  | ok a => exact pure
  | error e => exact hh e

theorem andFinally {cleanup : Coro σ Q A ε Unit} (hp : Asks P p) (hc : Asks P cleanup) :
    Asks P (p.andFinally cleanup) :=
  bind hp.attempt fun _ => bind hc fun _ => ofExcept

theorem transact {f : σ → Except ε α × σ} : Asks P (Coro.transact f : Coro σ Q A ε α) :=
  fun _ => ofExcept

theorem reads {f : σ → α} : Asks P (Coro.reads f : Coro σ Q A ε α) := transact

theorem modify {f : σ → σ} : Asks P (Coro.modify f : Coro σ Q A ε Unit) := transact

theorem request {q : Q} (h : P q) : Asks P (Coro.request q : Coro σ Q A ε (A q)) :=
  ⟨h, fun _ => ofExcept⟩

end Asks

namespace MayAsk

variable {q q' : Q}

theorem request : MayAsk q (Coro.request q : Coro σ Q A ε (A q)) := .inl rfl

theorem bind {f : α → Coro σ Q A ε β} (h : MayAsk q p) : MayAsk q (p >>= f) := by
  induction p with
  | ret a => exact h.elim
  | raise e => exact h.elim
  | atomic act next ih =>
    obtain ⟨s, hs⟩ := h
    exact ⟨s, ih s hs⟩
  | await q' resume ih =>
    rcases h with rfl | ⟨r, hr⟩
    · exact .inl rfl
    · exact .inr ⟨r, ih r hr⟩

theorem attempt (h : MayAsk q p) : MayAsk q p.attempt := by
  induction p with
  | ret a => exact h.elim
  | raise e => exact h.elim
  | atomic act next ih =>
    obtain ⟨s, hs⟩ := h
    exact ⟨s, ih s hs⟩
  | await q' resume ih =>
    rcases h with rfl | ⟨r, hr⟩
    · exact .inl rfl
    · exact .inr ⟨r, ih r hr⟩

theorem orHandle {handler : ε → Coro σ Q A ε α} (h : MayAsk q p) :
    MayAsk q (p.orHandle handler) := bind h.attempt

theorem andFinally {cleanup : Coro σ Q A ε Unit} (h : MayAsk q p) :
    MayAsk q (p.andFinally cleanup) := bind h.attempt

/-- What is asked once another request is answered. -/
theorem after_request {f : A q' → Coro σ Q A ε α} (a : A q') (h : MayAsk q (f a)) :
    MayAsk q (Coro.request q' >>= f) := .inr ⟨.ok a, h⟩

theorem after_lift {y : Except ε α} {a : α} {f : α → Coro σ Q A ε β} (hy : y = .ok a)
    (h : MayAsk q (f a)) : MayAsk q (liftM y >>= f) := by
  subst hy
  exact h

end MayAsk

/-! ## Runs with their requests -/

/-- A request of a run: the state it was made in, its answer, and the state it was answered in. -/
structure Asked (σ Q : Type) (A : Q → Type) (ε : Type) where
  request : Q
  before : σ
  answer : Except ε (A request)
  after : σ

variable {rely : (q : Q) → σ → Except ε (A q) → σ → Prop}

/-- The runs of a coroutine, with the requests made on the way. -/
inductive Traced (rely : (q : Q) → σ → Except ε (A q) → σ → Prop) :
    Coro σ Q A ε α → σ → List (Asked σ Q A ε) → Except ε α → σ → Prop
  | ret {a : α} {s : σ} : Traced rely (.ret a) s [] (.ok a) s
  | raise {e : ε} {s : σ} : Traced rely (.raise e) s [] (.error e) s
  | atomic {act : σ → σ} {next : σ → Coro σ Q A ε α} {s t : σ} {l : List (Asked σ Q A ε)}
      {x : Except ε α} (h : Traced rely (next s) (act s) l x t) :
      Traced rely (.atomic act next) s l x t
  | await {q : Q} {resume : Except ε (A q) → Coro σ Q A ε α} {r : Except ε (A q)} {s s' t : σ}
      {l : List (Asked σ Q A ε)} {x : Except ε α} (hr : rely q s r s')
      (h : Traced rely (resume r) s' l x t) :
        Traced rely (.await q resume) s (⟨q, s, r, s'⟩ :: l) x t

variable {s t : σ} {l : List (Asked σ Q A ε)} {x : Except ε α}

theorem Traced.runs (h : Traced rely p s l x t) : Runs rely p s x t := by
  induction h with
  | ret => exact .ret
  | raise => exact .raise
  | atomic _ ih => exact .atomic ih
  | await hr _ ih => exact .await hr ih

theorem Runs.traced (h : Runs rely p s x t) : ∃ l, Traced rely p s l x t := by
  induction h with
  | ret => exact ⟨[], .ret⟩
  | raise => exact ⟨[], .raise⟩
  | atomic _ ih =>
    obtain ⟨l, hl⟩ := ih
    exact ⟨l, .atomic hl⟩
  | await hr _ ih =>
    obtain ⟨l, hl⟩ := ih
    exact ⟨_ :: l, .await hr hl⟩

/-- The requests of a run are among those the coroutine makes. -/
theorem Traced.asks (h : Traced rely p s l x t) (hp : Asks P p) : ∀ a ∈ l, P a.request := by
  induction h with
  | ret => simp
  | raise => simp
  | atomic _ ih => exact ih (hp _)
  | await _ _ ih => exact List.forall_mem_cons.2 ⟨hp.1, ih (hp.2 _)⟩

/-- The environment answers as it may. -/
theorem Traced.answered (h : Traced rely p s l x t) :
    ∀ a ∈ l, rely a.request a.before a.answer a.after := by
  induction h with
  | ret => simp
  | raise => simp
  | atomic _ ih => exact ih
  | await hr _ ih => exact List.forall_mem_cons.2 ⟨hr, ih⟩

/-! ### Inversion -/

theorem Traced.pure_inv {a : α} (h : Traced rely (pure a : Coro σ Q A ε α) s l x t) :
    l = [] ∧ x = .ok a ∧ t = s := by
  cases h
  exact ⟨rfl, rfl, rfl⟩

theorem Traced.ofExcept_inv {y : Except ε α}
    (h : Traced rely (Coro.ofExcept y : Coro σ Q A ε α) s l x t) : l = [] ∧ x = y ∧ t = s := by
  cases y <;> cases h <;> exact ⟨rfl, rfl, rfl⟩

theorem Traced.lift_inv {y : Except ε α} (h : Traced rely (liftM y : Coro σ Q A ε α) s l x t) :
    l = [] ∧ x = y ∧ t = s := h.ofExcept_inv

theorem Traced.transact_inv {f : σ → Except ε α × σ}
    (h : Traced rely (Coro.transact f : Coro σ Q A ε α) s l x t) :
    l = [] ∧ x = (f s).1 ∧ t = (f s).2 := by
  cases h with
  | atomic h => exact h.ofExcept_inv

theorem Traced.request_inv {q : Q} {x : Except ε (A q)}
    (h : Traced rely (Coro.request q : Coro σ Q A ε (A q)) s l x t) :
    l = [⟨q, s, x, t⟩] ∧ rely q s x t := by
  cases h with
  | await hr h =>
    obtain ⟨rfl, rfl, rfl⟩ := h.ofExcept_inv
    exact ⟨rfl, hr⟩

/-- A run of a sequence is a run of its first part that returns and one of its second part, or a run
of its first part that raises. -/
theorem Traced.bind_inv {f : α → Coro σ Q A ε β} {y : Except ε β}
    (h : Traced rely (p >>= f) s l y t) :
    (∃ a u l₁ l₂, Traced rely p s l₁ (.ok a) u ∧ Traced rely (f a) u l₂ y t ∧ l = l₁ ++ l₂) ∨
      ∃ e, y = .error e ∧ Traced rely p s l (.error e) t := by
  induction p generalizing s l with
  | ret a => exact .inl ⟨a, s, [], l, .ret, h, rfl⟩
  | raise e =>
    cases h
    exact .inr ⟨e, rfl, .raise⟩
  | atomic act next ih =>
    cases h with
    | atomic h =>
      rcases ih _ h with ⟨a, u, l₁, l₂, h₁, h₂, hl⟩ | ⟨e, he, h₁⟩
      · exact .inl ⟨a, u, l₁, l₂, .atomic h₁, h₂, hl⟩
      · exact .inr ⟨e, he, .atomic h₁⟩
  | await q resume ih =>
    cases h with
    | await hr h =>
      rcases ih _ h with ⟨a, u, l₁, l₂, h₁, h₂, rfl⟩ | ⟨e, he, h₁⟩
      · exact .inl ⟨a, u, _ :: l₁, l₂, .await hr h₁, h₂, rfl⟩
      · exact .inr ⟨e, he, .await hr h₁⟩

theorem Traced.attempt_inv {y : Except ε (Except ε α)} (h : Traced rely p.attempt s l y t) :
    ∃ x, y = .ok x ∧ Traced rely p s l x t := by
  induction p generalizing s l with
  | ret a =>
    cases h
    exact ⟨_, rfl, .ret⟩
  | raise e =>
    cases h
    exact ⟨_, rfl, .raise⟩
  | atomic act next ih =>
    cases h with
    | atomic h =>
      obtain ⟨x, hx, h⟩ := ih _ h
      exact ⟨x, hx, .atomic h⟩
  | await q resume ih =>
    cases h with
    | await hr h =>
      obtain ⟨x, hx, h⟩ := ih _ h
      exact ⟨x, hx, .await hr h⟩

/-- A handler runs where the body raises. -/
theorem Traced.orHandle_inv {handler : ε → Coro σ Q A ε α}
    (h : Traced rely (p.orHandle handler) s l x t) :
    (∃ a, x = .ok a ∧ Traced rely p s l (.ok a) t) ∨
      ∃ e u l₁ l₂, Traced rely p s l₁ (.error e) u ∧ Traced rely (handler e) u l₂ x t ∧
        l = l₁ ++ l₂ := by
  rcases h.bind_inv with ⟨y, u, l₁, l₂, h₁, h₂, rfl⟩ | ⟨e, -, h₁⟩
  · obtain ⟨_, ⟨⟩, h₁⟩ := h₁.attempt_inv
    cases y with
    | ok a =>
      obtain ⟨rfl, rfl, rfl⟩ := h₂.pure_inv
      exact .inl ⟨a, rfl, by rwa [List.append_nil]⟩
    | error e => exact .inr ⟨e, u, l₁, l₂, h₁, h₂, rfl⟩
  · obtain ⟨_, ⟨⟩, -⟩ := h₁.attempt_inv

/-- A request, and what follows its answer. -/
theorem Traced.request_bind_inv {q : Q} {f : A q → Coro σ Q A ε β} {y : Except ε β}
    (h : Traced rely (Coro.request q >>= f) s l y t) :
    (∃ a u l', rely q s (.ok a) u ∧ Traced rely (f a) u l' y t ∧ l = ⟨q, s, .ok a, u⟩ :: l') ∨
      ∃ e, y = .error e ∧ rely q s (.error e) t ∧ l = [⟨q, s, .error e, t⟩] := by
  rcases h.bind_inv with ⟨a, u, l₁, l₂, h₁, h₂, rfl⟩ | ⟨e, he, h₁⟩
  · obtain ⟨rfl, hr⟩ := h₁.request_inv
    exact .inl ⟨a, u, l₂, hr, h₂, rfl⟩
  · obtain ⟨rfl, hr⟩ := h₁.request_inv
    exact .inr ⟨e, he, hr, rfl⟩

theorem Traced.modify_bind_inv {g : σ → σ} {f : Unit → Coro σ Q A ε β} {y : Except ε β}
    (h : Traced rely (Coro.modify g >>= f) s l y t) : Traced rely (f ()) (g s) l y t := by
  rcases h.bind_inv with ⟨_, u, l₁, l₂, h₁, h₂, rfl⟩ | ⟨e, -, h₁⟩
  · obtain ⟨rfl, -, rfl⟩ := h₁.transact_inv
    exact h₂
  · obtain ⟨-, he, -⟩ := h₁.transact_inv
    cases he

theorem Traced.reads_bind_inv {g : σ → α} {f : α → Coro σ Q A ε β} {y : Except ε β}
    (h : Traced rely (Coro.reads g >>= f) s l y t) : Traced rely (f (g s)) s l y t := by
  rcases h.bind_inv with ⟨a, u, l₁, l₂, h₁, h₂, rfl⟩ | ⟨e, -, h₁⟩
  · obtain ⟨rfl, ha, rfl⟩ := h₁.transact_inv
    obtain rfl := Except.ok.inj ha
    exact h₂
  · obtain ⟨-, he, -⟩ := h₁.transact_inv
    cases he

/-- A clean-up runs after the body, whatever its outcome, and what it raises replaces it. -/
theorem Traced.andFinally_inv {cleanup : Coro σ Q A ε Unit}
    (h : Traced rely (p.andFinally cleanup) s l x t) :
    ∃ y u z l₁ l₂, Traced rely p s l₁ y u ∧ Traced rely cleanup u l₂ z t ∧ l = l₁ ++ l₂ ∧
      (z = .ok () ∧ x = y ∨ ∃ e, z = .error e ∧ x = .error e) := by
  rcases h.bind_inv with ⟨y, u, l₁, l₂, h₁, h₂, rfl⟩ | ⟨e, -, h₁⟩
  · obtain ⟨_, ⟨⟩, h₁⟩ := h₁.attempt_inv
    rcases h₂.bind_inv with ⟨_, v, l₃, l₄, h₃, h₄, rfl⟩ | ⟨e, rfl, h₃⟩
    · obtain ⟨rfl, rfl, rfl⟩ := h₄.ofExcept_inv
      exact ⟨_, u, .ok (), l₁, l₃, h₁, h₃, by rw [List.append_nil], .inl ⟨rfl, rfl⟩⟩
    · exact ⟨y, u, .error e, l₁, l₂, h₁, h₃, rfl, .inr ⟨e, rfl, rfl⟩⟩
  · obtain ⟨_, ⟨⟩, -⟩ := h₁.attempt_inv

/-- A clean-up that only changes the state. -/
theorem Traced.andFinally_modify_inv {f : σ → σ}
    (h : Traced rely (p.andFinally (Coro.modify f)) s l x t) :
    ∃ u, Traced rely p s l x u ∧ t = f u := by
  obtain ⟨y, u, z, l₁, l₂, hp, hcleanup, rfl, hx⟩ := h.andFinally_inv
  obtain ⟨rfl, rfl, rfl⟩ := hcleanup.transact_inv
  rcases hx with ⟨-, rfl⟩ | ⟨e, he, -⟩
  · exact ⟨u, by rwa [List.append_nil], rfl⟩
  · cases he

/-! ## Between requests -/

/-- Up to the first request, from each answer to the next request, and from the last answer to the
end, the state changes within `G`. -/
def Between (G : σ → σ → Prop) : σ → List (Asked σ Q A ε) → σ → Prop
  | s, [], t => G s t
  | s, a :: l, t => G s a.before ∧ Between G a.after l t

namespace Between

variable {G : σ → σ → Prop} {r u : σ} {l' : List (Asked σ Q A ε)}

theorem head (trans : ∀ r s t, G r s → G s t → G r t) (hr : G r s) (h : Between G s l t) :
    Between G r l t := by
  cases l with
  | nil => exact trans _ _ _ hr h
  | cons a l => exact ⟨trans _ _ _ hr h.1, h.2⟩

theorem mono {G' : σ → σ → Prop} (h : Between G s l t) (hG : ∀ s t, G s t → G' s t) :
    Between G' s l t := by
  induction l generalizing s with
  | nil => exact hG _ _ h
  | cons a l ih => exact ⟨hG _ _ h.1, ih h.2⟩

theorem append (trans : ∀ r s t, G r s → G s t → G r t) (h : Between G s l t)
    (h' : Between G t l' u) : Between G s (l ++ l') u := by
  induction l generalizing s with
  | nil => exact h'.head trans h
  | cons a l ih => exact ⟨h.1, ih h.2⟩

/-- Where the answers keep what the blocks keep, the run does. -/
theorem keeps (trans : ∀ r s t, G r s → G s t → G r t) (h : Between G s l t)
    (answers : ∀ a ∈ l, G a.before a.after) : G s t := by
  induction l generalizing s with
  | nil => exact h
  | cons a l ih =>
    obtain ⟨ha, hl⟩ := List.forall_mem_cons.1 answers
    exact trans _ _ _ h.1 (trans _ _ _ ha (ih h.2 hl))

end Between

/-- **What is ensured of the blocks is so between the requests of every run**, and what is ensured
of the result is so where it returns. -/
theorem Traced.ensured {G : σ → σ → Prop} {Φ : α → Prop} (h : Traced rely p s l x t)
    (hp : Ensures G p Φ) (refl : ∀ s, G s s) (trans : ∀ r s t, G r s → G s t → G r t) :
    Between G s l t ∧ ∀ a, x = .ok a → Φ a := by
  have hwp := hp s
  generalize hΨ : (fun (x : Except ε α) (_ : σ) => ∀ a, x = .ok a → Φ a) = Ψ at hwp
  have key : Between G s l t ∧ Ψ x t := by
    clear hΨ hp
    induction h with
    | ret => exact ⟨refl _, hwp⟩
    | raise => exact ⟨refl _, hwp⟩
    | atomic _ ih =>
      obtain ⟨hl, hx⟩ := ih hwp.2
      exact ⟨hl.head trans hwp.1, hx⟩
    | await hr _ ih =>
      obtain ⟨hl, hx⟩ := ih (hwp _ _ trivial)
      exact ⟨⟨refl _, hl⟩, hx⟩
  subst hΨ
  exact key

end DecentRegistry.Coroutine
