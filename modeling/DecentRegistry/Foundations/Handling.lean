import DecentRegistry.Foundations.Requests

/-!
# Handling requests

A coroutine that makes requests of one kind becomes one that makes requests of another, once every
request is answered by a coroutine (`Coro.handle`). A run of the result is a run of the coroutine in
which every request is answered by a run of its handler (`runs_handle`), so that what holds of the
coroutine under all answers its handlers can give holds of the result.
-/

namespace DecentRegistry.Coroutine

variable {σ Q Q' : Type} {A : Q → Type} {A' : Q' → Type} {ε α β : Type}

/-- Answer every request by running a coroutine. -/
def Coro.handle (h : (q : Q) → Coro σ Q' A' ε (A q)) : Coro σ Q A ε α → Coro σ Q' A' ε α
  | .ret a => .ret a
  | .raise e => .raise e
  | .atomic act next => .atomic act fun s => (next s).handle h
  | .await q resume => (h q).attempt >>= fun r => (resume r).handle h

variable {h : (q : Q) → Coro σ Q' A' ε (A q)} {p : Coro σ Q A ε α}

theorem handle_bind {f : α → Coro σ Q A ε β} :
    (p >>= f).handle h = p.handle h >>= fun a => (f a).handle h := by
  induction p with
  | ret a => rfl
  | raise e => rfl
  | atomic act next ih => exact congrArg (Coro.atomic act) (funext ih)
  | await q resume ih =>
    change (h q).attempt >>= (fun r => (resume r >>= f).handle h) =
      ((h q).attempt >>= fun r => (resume r).handle h) >>= fun a => (f a).handle h
    rw [bind_assoc]
    exact congrArg ((h q).attempt >>= ·) (funext ih)

/-- A coroutine is its attempt, carried on. -/
theorem attempt_ofExcept (p : Coro σ Q A ε α) : p.attempt >>= Coro.ofExcept = p := by
  induction p with
  | ret a => rfl
  | raise e => rfl
  | atomic act next ih => exact congrArg (Coro.atomic act) (funext ih)
  | await q resume ih => exact congrArg (Coro.await q) (funext ih)

theorem handle_ofExcept {x : Except ε α} :
    (Coro.ofExcept x : Coro σ Q A ε α).handle h = Coro.ofExcept x := by
  cases x <;> rfl

/-- A request is answered by its handler. -/
theorem handle_request {q : Q} : (Coro.request q : Coro σ Q A ε (A q)).handle h = h q := by
  have hresume : (fun r => (Coro.ofExcept r : Coro σ Q A ε (A q)).handle h) = Coro.ofExcept :=
    funext fun r => handle_ofExcept
  change (h q).attempt >>= (fun r => (Coro.ofExcept r : Coro σ Q A ε (A q)).handle h) = h q
  rw [hresume, attempt_ofExcept]

/-! ## Runs -/

variable {rely : (q : Q') → σ → Except ε (A' q) → σ → Prop} {s t : σ}

/-- Requests are answered by runs of their handlers. -/
def Handled (rely : (q : Q') → σ → Except ε (A' q) → σ → Prop)
    (h : (q : Q) → Coro σ Q' A' ε (A q)) (q : Q) (s : σ) (r : Except ε (A q)) (t : σ) : Prop :=
  Runs rely (h q) s r t

theorem Runs.mono {rely' : (q : Q') → σ → Except ε (A' q) → σ → Prop} {p : Coro σ Q' A' ε α}
    {x : Except ε α} (h : Runs rely p s x t) (hrely : ∀ q s r t, rely q s r t → rely' q s r t) :
    Runs rely' p s x t := by
  induction h with
  | ret => exact .ret
  | raise => exact .raise
  | atomic _ ih => exact .atomic ih
  | await hr _ ih => exact .await (hrely _ _ _ _ hr) ih

/-- What is ensured is so in every run. -/
theorem Ensures.of_runs {G : σ → σ → Prop} {p : Coro σ Q' A' ε α} {Φ : α → Prop} {a : α}
    (h : Ensures G p Φ) (hrun : Runs rely p s (.ok a) t) : Φ a :=
  (hrun.mono fun _ _ _ _ _ => trivial).sound (h s) a rfl

theorem Runs.bind_inv {p : Coro σ Q' A' ε α} {f : α → Coro σ Q' A' ε β} {y : Except ε β}
    (h : Runs rely (p >>= f) s y t) :
    (∃ a u, Runs rely p s (.ok a) u ∧ Runs rely (f a) u y t) ∨
      ∃ e, y = .error e ∧ Runs rely p s (.error e) t := by
  obtain ⟨l, hl⟩ := h.traced
  rcases hl.bind_inv with ⟨a, u, _, _, hp, hf, -⟩ | ⟨e, he, hp⟩
  · exact .inl ⟨a, u, hp.runs, hf.runs⟩
  · exact .inr ⟨e, he, hp.runs⟩

theorem Runs.attempt_inv {p : Coro σ Q' A' ε α} {y : Except ε (Except ε α)}
    (h : Runs rely p.attempt s y t) : ∃ x, y = .ok x ∧ Runs rely p s x t := by
  obtain ⟨l, hl⟩ := h.traced
  obtain ⟨x, hx, hp⟩ := hl.attempt_inv
  exact ⟨x, hx, hp.runs⟩

/-- **A run of a handled coroutine** is a run in which the handlers answer. -/
theorem runs_handle {x : Except ε α} (hrun : Runs rely (p.handle h) s x t) :
    Runs (Handled rely h) p s x t := by
  induction p generalizing s with
  | ret a =>
    cases hrun
    exact .ret
  | raise e =>
    cases hrun
    exact .raise
  | atomic act next ih =>
    cases hrun with
    | atomic hrun => exact .atomic (ih _ hrun)
  | await q resume ih =>
    rcases Runs.bind_inv hrun with ⟨r, u, hq, hresume⟩ | ⟨e, -, hq⟩
    · obtain ⟨_, ⟨⟩, hq⟩ := hq.attempt_inv
      exact .await hq (ih r hresume)
    · obtain ⟨_, ⟨⟩, -⟩ := hq.attempt_inv

end DecentRegistry.Coroutine
