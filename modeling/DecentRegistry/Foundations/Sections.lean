import DecentRegistry.Foundations.Requests
import DecentRegistry.Foundations.Scheduling
import Mathlib.Data.List.Pairwise

/-!
# Critical sections

The coroutines of a pool share a lock: some states hold it, and one request asks for it. A coroutine
is `Outside` as long as it has not been given the lock, and `Within` from then until one of its
blocks releases it, after which it only returns or raises. `Lockfree` coroutines do not touch the
lock.

* `outside_withLock` turns a weakest precondition of the body of a section, from the state in which
  it is entered, into this discipline.
* `Called` are the pools of a schedule with the log of the requests that were answered. What is
  known of the answers in the log may be used in the weakest preconditions.
* `Called.serialized`: whatever the schedule, the sections that were left can be put into an order
  in which each is entered after the one before was left. -/

namespace DecentRegistry.Coroutine

open Coro

variable {σ Q : Type} {A : Q → Type} {ε α β L : Type}

/-- In which states a lock is held, and the request for it. -/
structure Lock (σ Q : Type) where
  held : σ → Prop
  acquire : Q

namespace Lock

variable (K : Lock σ Q)

/-- The answer gives the lock. -/
def Grants (q : Q) (r : Except ε (A q)) : Prop := q = K.acquire ∧ r.isOk = true

/-- The environment gives the lock where it is free, and otherwise leaves it alone. -/
structure Respects (S : Schedule σ Q A ε) : Prop where
  granted : ∀ q s r t, S.answers q s r t → K.Grants q r → ¬ K.held s ∧ K.held t
  other : ∀ q s r t, S.answers q s r t → ¬ K.Grants q r → (K.held t ↔ K.held s)
  drifts : ∀ s t, S.drifts s t → (K.held t ↔ K.held s)

/-- The coroutine neither asks for the lock nor has a block that takes or releases it. -/
def Lockfree : Coro σ Q A ε α → Prop
  | .ret _ | .raise _ => True
  | .atomic act next => ∀ s, (K.held (act s) ↔ K.held s) ∧ Lockfree (next s)
  | .await q resume => q ≠ K.acquire ∧ ∀ r, Lockfree (resume r)

/-- The coroutine has ended, with an outcome that satisfies `Θ`. -/
def Ended (Θ : Except ε α → Prop) : Coro σ Q A ε α → Prop
  | .ret a => Θ (.ok a)
  | .raise e => Θ (.error e)
  | .atomic _ _ | .await _ _ => False

/-- The coroutine is in its section. It gets answers, in states, that satisfy `E`. While it is
suspended the state moves within `R` and the lock stays held; when it leaves the section it has
ended, and outcome and state satisfy `Θ`. -/
def Within (E : (q : Q) → Except ε (A q) → σ → Prop) (R : σ → σ → Prop)
    (Θ : Except ε α → σ → Prop) : Coro σ Q A ε α → σ → Prop
  | .ret _, _ | .raise _, _ => False
  | .atomic act next, s => (K.held (act s) ∧ Within E R Θ (next s) (act s)) ∨
      (¬ K.held (act s) ∧ Ended (fun x => Θ x (act s)) (next s))
  | .await q resume, s => ∀ r t, E q r t → R s t → K.held t → Within E R Θ (resume r) t

/-- The coroutine has not been given the lock. A section entered in the state `s` leaves with `Φ s`;
a coroutine that ends without one has an outcome that satisfies `Ψ`. -/
def Outside (E : (q : Q) → Except ε (A q) → σ → Prop) (R : σ → σ → Prop)
    (Ψ : Except ε α → Prop) (Φ : σ → Except ε α → σ → Prop) : Coro σ Q A ε α → σ → Prop
  | .ret a, _ => Ψ (.ok a)
  | .raise e, _ => Ψ (.error e)
  | .atomic act next, s => (K.held (act s) ↔ K.held s) ∧ Outside E R Ψ Φ (next s) (act s)
  | .await q resume, _ => ∀ r t, E q r t →
      (K.Grants q r → K.held t → Within K E R (Φ t) (resume r) t) ∧
      (¬ K.Grants q r → Outside E R Ψ Φ (resume r) t)

variable {K} {E : (q : Q) → Except ε (A q) → σ → Prop} {R : σ → σ → Prop}
  {Ψ : Except ε α → Prop} {Φ : σ → Except ε α → σ → Prop} {Θ : Except ε α → σ → Prop}
  {p : Coro σ Q A ε α} {s t : σ}

/-! ## Coroutines that do not touch the lock -/

namespace Lockfree

theorem pure {a : α} : K.Lockfree (pure a : Coro σ Q A ε α) := trivial

theorem raise {e : ε} : K.Lockfree (.raise e : Coro σ Q A ε α) := trivial

theorem ofExcept {x : Except ε α} : K.Lockfree (Coro.ofExcept x : Coro σ Q A ε α) := by
  cases x <;> trivial

theorem lift {x : Except ε α} : K.Lockfree (liftM x : Coro σ Q A ε α) := ofExcept

theorem bind {f : α → Coro σ Q A ε β} (hp : K.Lockfree p) (hf : ∀ a, K.Lockfree (f a)) :
    K.Lockfree (p >>= f) := by
  induction p with
  | ret a => exact hf a
  | raise e => trivial
  | atomic act next ih => exact fun s => ⟨(hp s).1, ih s (hp s).2⟩
  | await q resume ih => exact ⟨hp.1, fun r => ih r (hp.2 r)⟩

/-- `if b: p`, and then the rest. -/
theorem when {b : Prop} {_ : Decidable b} {p : Coro σ Q A ε Unit} {f : Unit → Coro σ Q A ε β}
    (hp : K.Lockfree p) (hf : ∀ u, K.Lockfree (f u)) :
    K.Lockfree (if b then p >>= f else f ()) := by
  split
  · exact bind hp hf
  · exact hf ()

theorem attempt (hp : K.Lockfree p) : K.Lockfree p.attempt := by
  induction p with
  | ret a => trivial
  | raise e => trivial
  | atomic act next ih => exact fun s => ⟨(hp s).1, ih s (hp s).2⟩
  | await q resume ih => exact ⟨hp.1, fun r => ih r (hp.2 r)⟩

theorem orHandle {handler : ε → Coro σ Q A ε α} (hp : K.Lockfree p)
    (hh : ∀ e, K.Lockfree (handler e)) : K.Lockfree (p.orHandle handler) := by
  refine bind hp.attempt fun x => ?_
  cases x with
  | ok a => exact pure
  | error e => exact hh e

theorem transact {f : σ → Except ε α × σ} (h : ∀ s, K.held (f s).2 ↔ K.held s) :
    K.Lockfree (Coro.transact f : Coro σ Q A ε α) := fun s => ⟨h s, ofExcept⟩

theorem reads {f : σ → α} : K.Lockfree (Coro.reads f : Coro σ Q A ε α) := transact fun _ => Iff.rfl

theorem modify {f : σ → σ} (h : ∀ s, K.held (f s) ↔ K.held s) :
    K.Lockfree (Coro.modify f : Coro σ Q A ε Unit) := transact h

theorem request {q : Q} (h : q ≠ K.acquire) : K.Lockfree (Coro.request q : Coro σ Q A ε (A q)) :=
  ⟨h, fun _ => ofExcept⟩

/-- A coroutine that does not touch the lock has no section. -/
theorem outside (h : K.Lockfree p) (hΨ : ∀ x, Ψ x) (s : σ) : K.Outside E R Ψ Φ p s := by
  induction p generalizing s with
  | ret a => exact hΨ _
  | raise e => exact hΨ _
  | atomic act next ih => exact ⟨(h s).1, ih s (h s).2 _⟩
  | await q resume ih => exact fun r t _ => ⟨fun hr => absurd hr.1 h.1, fun _ => ih r (h.2 r) t⟩

/-- What a coroutine does before it asks for the lock is outside. -/
theorem outside_bind {f : β → Coro σ Q A ε α} {p : Coro σ Q A ε β} (hp : K.Lockfree p)
    (error : ∀ e, Ψ (.error e)) (ok : ∀ a s, K.Outside E R Ψ Φ (f a) s) (s : σ) :
    K.Outside E R Ψ Φ (p >>= f) s := by
  induction p generalizing s with
  | ret a => exact ok a s
  | raise e => exact error e
  | atomic act next ih => exact ⟨(hp s).1, ih s (hp s).2 _⟩
  | await q resume ih => exact fun r t _ => ⟨fun hr => absurd hr.1 hp.1, fun _ => ih r (hp.2 r) t⟩

end Lockfree

/-! ## The body of a section -/

variable (K E R) in
/-- While the body of a section is suspended the state moves within `R` and the lock stays held, and
the answers satisfy `E`. -/
def sectionContract : Contract σ Q A ε :=
  ⟨fun q s r t => E q r t ∧ R s t ∧ K.held t, fun _ _ => True⟩

/-- The end of a section. -/
theorem within_release {x : Except ε β} {release : σ → σ} {g : β → α} {s : σ}
    (hrelease : ¬ K.held (release s)) (h : Θ (g <$> x) (release s)) :
    K.Within E R Θ (((Coro.modify release : Coro σ Q A ε Unit) >>= fun _ => Coro.ofExcept x) >>=
      fun b => Pure.pure (g b)) s := by
  refine .inr ⟨hrelease, ?_⟩
  cases x with
  | ok a => exact h
  | error e => exact h

/-- A body after which the lock is released, and what is made of its value. -/
theorem within_body {body : Coro σ Q A ε β} {release : σ → σ} {g : β → α}
    (hrelease : ∀ s, ¬ K.held (release s)) (hbody : K.Lockfree body) (hs : K.held s)
    (h : wp (sectionContract K E R) body (fun x t => Θ (g <$> x) (release t)) s) :
    K.Within E R Θ ((body.andFinally (Coro.modify release)) >>= fun b => Pure.pure (g b)) s := by
  induction body generalizing s with
  | ret a => exact within_release (hrelease s) h
  | raise e => exact within_release (hrelease s) h
  | atomic act next ih =>
    obtain ⟨hkeeps, hnext⟩ := hbody s
    exact .inl ⟨hkeeps.2 hs, ih s hnext (hkeeps.2 hs) h.2⟩
  | await q resume ih =>
    exact fun r t hE hR ht => ih r (hbody.2 r) ht (h r t ⟨hE, hR, ht⟩)

/-- **A section.** -/
theorem outside_withLock {body : Coro σ Q A ε β} {release : σ → σ} {g : β → α}
    (hrelease : ∀ s, ¬ K.held (release s)) (hbody : K.Lockfree body) (error : ∀ e, Ψ (.error e))
    (h : ∀ s, wp (sectionContract K E R) body (fun x t => Φ s (g <$> x) (release t)) s) (s : σ) :
    K.Outside E R Ψ Φ ((Coro.request K.acquire >>= fun _ =>
      body.andFinally (Coro.modify release)) >>= fun b => Pure.pure (g b)) s := by
  intro r t _
  cases r with
  | ok a => exact ⟨fun _ ht => within_body hrelease hbody ht (h t), fun hr => absurd ⟨rfl, rfl⟩ hr⟩
  | error e =>
    refine ⟨fun hr => ?_, fun _ => error e⟩
    cases hr.2

/-! ## Coroutines that wait -/

/-- A coroutine that has come to a request or to its end. -/
def Idle (p : Coro σ Q A ε α) : Prop := ∀ act next, p ≠ .atomic act next

theorem Outside.move (h : K.Outside E R Ψ Φ p s) (hp : Idle p) (t : σ) : K.Outside E R Ψ Φ p t := by
  cases p with
  | ret => exact h
  | raise => exact h
  | atomic act next => exact absurd rfl (hp act next)
  | await q resume => exact h

theorem Within.move (trans : ∀ r s t, R r s → R s t → R r t) (h : K.Within E R Θ p s)
    (hp : Idle p) (ht : R s t) : K.Within E R Θ p t := by
  cases p with
  | ret => exact h
  | raise => exact h
  | atomic act next => exact absurd rfl (hp act next)
  | await q resume => exact fun r u hE hu => h r u hE (trans _ _ _ ht hu)

/-- How a coroutine has ended. -/
theorem Ended.outcome {P : Except ε Unit → Prop} {p : Coro σ Q A ε Unit} (h : Ended P p) :
    ∃ x, p = Pool.ended x ∧ P x := by
  cases p with
  | ret a => exact ⟨.ok a, rfl, h⟩
  | raise e => exact ⟨.error e, rfl, h⟩
  | atomic => exact h.elim
  | await => exact h.elim

end Lock

/-! ## Sections in a pool -/

/-- A section that was left: the coroutine, what was called, the state in which it entered the
section, its outcome, and the state in which it left. -/
structure Section (L σ ε : Type) where
  task : ℕ
  label : L
  entered : σ
  outcome : Except ε Unit
  left : σ

/-- The pools of a schedule, with what has been called in them and which requests were answered,
each with the coroutine that made it. -/
inductive Called (S : Schedule σ Q A ε) (program : L → Coro σ Q A ε Unit) (s : σ) :
    List L → List (ℕ × Asked σ Q A ε) → Pool σ Q A ε → Prop
  | start : Called S program s [] [] ⟨s, [], none⟩
  | call {ls : List L} {asked : List (ℕ × Asked σ Q A ε)} {t : σ}
      {tasks : List (Coro σ Q A ε Unit)} {l : L} (h : Called S program s ls asked ⟨t, tasks, none⟩)
      (hl : S.callable t (program l)) :
      Called S program s (ls ++ [l]) asked ⟨t, tasks ++ [program l], some tasks.length⟩
  | resume {ls : List L} {asked : List (ℕ × Asked σ Q A ε)} {t u : σ}
      {tasks : List (Coro σ Q A ε Unit)} {i : ℕ} {q : Q} {next : Except ε (A q) → Coro σ Q A ε Unit}
      {r : Except ε (A q)} (h : Called S program s ls asked ⟨t, tasks, none⟩)
      (hi : tasks[i]? = some (.await q next)) (hr : S.answers q t r u) :
      Called S program s ls (asked ++ [(i, ⟨q, t, r, u⟩)]) ⟨u, tasks.set i (next r), some i⟩
  | block {ls : List L} {asked : List (ℕ × Asked σ Q A ε)} {t : σ}
      {tasks : List (Coro σ Q A ε Unit)} {i : ℕ} {act : σ → σ} {next : σ → Coro σ Q A ε Unit}
      (h : Called S program s ls asked ⟨t, tasks, some i⟩)
      (hi : tasks[i]? = some (.atomic act next)) :
      Called S program s ls asked ⟨act t, tasks.set i (next t), some i⟩
  | suspend {ls : List L} {asked : List (ℕ × Asked σ Q A ε)} {t : σ}
      {tasks : List (Coro σ Q A ε Unit)} {i : ℕ}
        (h : Called S program s ls asked ⟨t, tasks, some i⟩)
      (hi : ∀ act next, tasks[i]? ≠ some (.atomic act next)) :
      Called S program s ls asked ⟨t, tasks, none⟩
  | drift {ls : List L} {asked : List (ℕ × Asked σ Q A ε)} {t u : σ}
      {tasks : List (Coro σ Q A ε Unit)} (h : Called S program s ls asked ⟨t, tasks, none⟩)
      (hu : S.drifts t u) : Called S program s ls asked ⟨u, tasks, none⟩

variable {S : Schedule σ Q A ε} {program : L → Coro σ Q A ε Unit} {s₀ : σ} {ls : List L}
  {asked : List (ℕ × Asked σ Q A ε)} {c : Pool σ Q A ε}

theorem Called.reachable (h : Called S program s₀ ls asked c) : Pool.Reachable S s₀ c := by
  induction h with
  | start => exact .refl
  | call _ hl ih => exact .tail ih (.call hl)
  | resume _ hi hr ih => exact .tail ih (.resume hi hr)
  | block _ hi ih => exact .tail ih (.block hi)
  | suspend _ hi ih => exact .tail ih (.suspend hi)
  | drift _ hu ih => exact .tail ih (.drift hu)

theorem Called.length (h : Called S program s₀ ls asked c) : c.tasks.length = ls.length := by
  induction h with
  | start => rfl
  | call _ _ ih => simpa using ih
  | resume _ _ _ ih => simpa using ih
  | block _ _ ih => simpa using ih
  | suspend _ _ ih => exact ih
  | drift _ _ ih => exact ih

/-- The answers in a log to one coroutine, and the states it got them in. -/
def answersTo (asked : List (ℕ × Asked σ Q A ε)) (i : ℕ) (q : Q) (r : Except ε (A q)) (t : σ) :
    Prop :=
  ∃ s, (i, (⟨q, s, r, t⟩ : Asked σ Q A ε)) ∈ asked

theorem answersTo_of_mem {a : ℕ × Asked σ Q A ε} (ha : a ∈ asked) :
    answersTo asked a.1 a.2.request a.2.answer a.2.after := ⟨a.2.before, ha⟩

/-- The running coroutine goes on to its end. -/
theorem Called.finish {p : Coro σ Q A ε Unit} {t u : σ} {made : List (Asked σ Q A ε)}
    {x : Except ε Unit} (hmade : Traced S.answers p t made x u)
    {asked : List (ℕ × Asked σ Q A ε)} {tasks : List (Coro σ Q A ε Unit)} {i : ℕ}
    (hp : tasks[i]? = some p) (h : Called S program s₀ ls asked ⟨t, tasks, some i⟩) :
    Called S program s₀ ls (asked ++ made.map (i, ·)) ⟨u, tasks.set i (Pool.ended x), none⟩ := by
  have hset {q r : Coro σ Q A ε Unit} {tasks : List (Coro σ Q A ε Unit)}
      (hq : tasks[i]? = some q) : (tasks.set i r)[i]? = some r := by
    obtain ⟨hi, -⟩ := List.getElem?_eq_some_iff.1 hq
    simp [hi]
  have hsame {q : Coro σ Q A ε Unit} {tasks : List (Coro σ Q A ε Unit)}
      (hq : tasks[i]? = some q) : tasks.set i q = tasks := by
    obtain ⟨hi, rfl⟩ := List.getElem?_eq_some_iff.1 hq
    exact List.set_getElem_self hi
  induction hmade generalizing asked tasks with
  | @ret a s =>
    rw [show Pool.ended (.ok a) = .ret a from rfl, hsame hp, List.map_nil, List.append_nil]
    exact h.suspend fun act next hi => by simp [hp] at hi
  | @raise e s =>
    rw [show Pool.ended (.error e) = .raise e from rfl, hsame hp, List.map_nil, List.append_nil]
    exact h.suspend fun act next hi => by simp [hp] at hi
  | atomic _ ih =>
    have hrest := ih (hset hp) (h.block hp)
    rwa [List.set_set] at hrest
  | await hr _ ih =>
    have hwaits := h.suspend fun act next hi => by simp [hp] at hi
    have hrest := ih (hset hp) (hwaits.resume hp hr)
    rwa [List.set_set, List.append_assoc] at hrest

/-- A coroutine is called and runs to its end. -/
theorem Called.run {t u : σ} {tasks : List (Coro σ Q A ε Unit)} {l : L}
    {made : List (Asked σ Q A ε)} {x : Except ε Unit}
    (h : Called S program s₀ ls asked ⟨t, tasks, none⟩) (hl : S.callable t (program l))
    (hmade : Traced S.answers (program l) t made x u) :
    Called S program s₀ (ls ++ [l]) (asked ++ made.map (tasks.length, ·))
      ⟨u, tasks ++ [Pool.ended x], none⟩ := by
  have hlast : (tasks ++ [program l])[tasks.length]? = some (program l) := by simp
  have hfinished := (h.call hl).finish hmade hlast
  rw [List.set_append_right _ _ (Nat.le_refl _)] at hfinished
  simpa only [Nat.sub_self, List.set_cons_zero] using hfinished

/-- Where a coroutine is, given which sections were left and who is in one. -/
inductive Position (K : Lock σ Q) (E : ℕ → (q : Q) → Except ε (A q) → σ → Prop) (R : σ → σ → Prop)
    (Ψ : L → Except ε Unit → Prop) (Φ : ℕ → L → σ → Except ε Unit → σ → Prop) (s₀ s : σ)
    (log : List (Section L σ ε))
    (holder : Option ℕ) (i : ℕ) (l : L) (p : Coro σ Q A ε Unit) : Prop
  | outside (other : holder ≠ some i) (h : K.Outside (E i) R (Ψ l) (Φ i l) p s) :
    Position K E R Ψ Φ s₀ s log holder i l p
  | within {entered : σ} (holds : holder = some i) (since : R s₀ entered)
    (after : ∀ a ∈ log, R a.left entered) (h : K.Within (E i) R (Φ i l entered) p s) :
    Position K E R Ψ Φ s₀ s log holder i l p
  | left {a : Section L σ ε} (other : holder ≠ some i) (ha : a ∈ log) (task : a.task = i)
    (h : p = Pool.ended a.outcome) : Position K E R Ψ Φ s₀ s log holder i l p

/-- The sections that were left are in an order in which each was entered after those before it were
left, and at most one coroutine is in a section. -/
structure Serialized (K : Lock σ Q) (E : ℕ → (q : Q) → Except ε (A q) → σ → Prop) (R : σ → σ → Prop)
    (Ψ : L → Except ε Unit → Prop) (Φ : ℕ → L → σ → Except ε Unit → σ → Prop) (s₀ : σ) (ls : List L)
    (c : Pool σ Q A ε)
    (log : List (Section L σ ε)) (holder : Option ℕ) : Prop where
  held : K.held c.state ↔ ∃ i, holder = some i
  holder_lt : ∀ i, holder = some i → i < c.tasks.length
  order : log.Pairwise fun a b => R a.left b.entered
  since : R s₀ c.state
  past : ∀ a ∈ log, R a.left c.state
  valid : ∀ a ∈ log, ls[a.task]? = some a.label ∧ R s₀ a.entered ∧ R s₀ a.left ∧
    Φ a.task a.label a.entered a.outcome a.left
  idle : ∀ i p, c.tasks[i]? = some p → c.running ≠ some i → Lock.Idle p
  position : ∀ i p l, c.tasks[i]? = some p → ls[i]? = some l →
    Position K E R Ψ Φ s₀ c.state log holder i l p

variable {K : Lock σ Q} {E : ℕ → (q : Q) → Except ε (A q) → σ → Prop} {R : σ → σ → Prop}
  {Ψ : L → Except ε Unit → Prop} {Φ : ℕ → L → σ → Except ε Unit → σ → Prop}
    {log log' : List (Section L σ ε)} {holder holder' : Option ℕ}
  {s t : σ} {tasks : List (Coro σ Q A ε Unit)} {running : Option ℕ} {i : ℕ} {l : L}
  {p p' : Coro σ Q A ε Unit}

/-- A coroutine that waits stays where it is. -/
theorem Position.move (trans : ∀ r s t, R r s → R s t → R r t)
    (h : Position K E R Ψ Φ s₀ s log holder i l p) (hp : Lock.Idle p) (ht : R s t)
    (hlog : ∀ a ∈ log, a ∈ log') (hholder : holder' = some i ↔ holder = some i)
    (hsame : holder = some i → log' = log) : Position K E R Ψ Φ s₀ t log' holder' i l p := by
  cases h with
  | outside other h => exact .outside (by rwa [Ne, hholder]) (h.move hp t)
  | within holds since after h =>
    exact .within (hholder.2 holds) since (hsame holds ▸ after) (h.move trans hp ht)
  | left other ha task h => exact .left (by rwa [Ne, hholder]) (hlog _ ha) task h

/-- One coroutine goes on and the others wait. -/
theorem Serialized.set (trans : ∀ r s t, R r s → R s t → R r t)
    (h : Serialized K E R Ψ Φ s₀ ls ⟨s, tasks, running⟩ log holder)
    (hrunning : running = none ∨ running = some i) (hi : i < tasks.length) (ht : R s t)
    (held : K.held t ↔ ∃ j, holder' = some j)
    (order : log'.Pairwise fun a b => R a.left b.entered) (past : ∀ a ∈ log', R a.left t)
    (valid : ∀ a ∈ log', ls[a.task]? = some a.label ∧ R s₀ a.entered ∧ R s₀ a.left ∧
      Φ a.task a.label a.entered a.outcome a.left)
    (hlog : ∀ a ∈ log, a ∈ log') (hholder : ∀ j, j ≠ i → (holder' = some j ↔ holder = some j))
    (hsame : ∀ j, j ≠ i → holder = some j → log' = log)
    (position : ∀ l, ls[i]? = some l → Position K E R Ψ Φ s₀ t log' holder' i l p') :
    Serialized K E R Ψ Φ s₀ ls ⟨t, tasks.set i p', some i⟩ log' holder' := by
  have hother {j : ℕ} (hj : j ≠ i) : running ≠ some j := by
    rcases hrunning with rfl | rfl
    · simp
    · simpa using hj.symm
  refine ⟨held, fun j hj => ?_, order, trans _ _ _ h.since ht, past, valid,
    fun j q hq hj => ?_, fun j q l hq hl => ?_⟩
  · rw [List.length_set]
    by_cases hij : j = i
    · rwa [hij]
    · exact h.holder_lt j ((hholder j hij).1 hj)
  · have hij : i ≠ j := fun hij => hj (congrArg some hij)
    rw [List.getElem?_set_ne hij] at hq
    exact h.idle j q hq (hother hij.symm)
  · by_cases hij : i = j
    · subst hij
      rw [List.getElem?_set_self hi] at hq
      obtain rfl := Option.some.inj hq
      exact position l hl
    · rw [List.getElem?_set_ne hij] at hq
      exact (h.position j q l hq hl).move trans (h.idle j q hq (hother (Ne.symm hij))) ht hlog
        (hholder j (Ne.symm hij)) (hsame j (Ne.symm hij))

/-- The holder of the lock is in its section. -/
theorem Serialized.within (h : Serialized K E R Ψ Φ s₀ ls ⟨s, tasks, running⟩ log holder)
    (hp : tasks[i]? = some p) (hl : ls[i]? = some l) (holds : holder = some i) :
    ∃ entered, R s₀ entered ∧ (∀ a ∈ log, R a.left entered) ∧
      K.Within (E i) R (Φ i l entered) p s := by
  cases h.position i p l hp hl with
  | outside other => exact absurd holds other
  | within _ since after h => exact ⟨_, since, after, h⟩
  | left other => exact absurd holds other

/-- A coroutine that has not ended, and does not hold the lock, has not been given it. -/
theorem Serialized.outside (h : Serialized K E R Ψ Φ s₀ ls ⟨s, tasks, running⟩ log holder)
    (hp : tasks[i]? = some p) (hl : ls[i]? = some l) (other : holder ≠ some i)
    (hne : ∀ x, p ≠ Pool.ended x) : K.Outside (E i) R (Ψ l) (Φ i l) p s := by
  cases h.position i p l hp hl with
  | outside _ h => exact h
  | within holds => exact absurd holds other
  | left _ _ _ h => exact absurd h (hne _)

section Step

variable (trans : ∀ r s t, R r s → R s t → R r t)

include trans

/-- A request is answered. -/
theorem Serialized.resume (hK : K.Respects S) {q : Q} {next : Except ε (A q) → Coro σ Q A ε Unit}
    {r : Except ε (A q)} (h : Serialized K E R Ψ Φ s₀ ls ⟨s, tasks, none⟩ log holder)
    (hlength : tasks.length = ls.length) (hi : tasks[i]? = some (.await q next))
    (hr : S.answers q s r t) (hE : E i q r t) (ht : R s t) :
    ∃ holder', Serialized K E R Ψ Φ s₀ ls ⟨t, tasks.set i (next r), some i⟩ log holder' := by
  obtain ⟨hlt, -⟩ := List.getElem?_eq_some_iff.1 hi
  obtain ⟨l, hl⟩ : ∃ l, ls[i]? = some l := ⟨_, List.getElem?_eq_getElem (hlength ▸ hlt)⟩
  have hpast : ∀ a ∈ log, R a.left t := fun a ha => trans _ _ _ (h.past a ha) ht
  have hne : ∀ x, Coro.await q next ≠ Pool.ended x := by rintro (_ | _) <;> nofun
  by_cases hgrants : K.Grants q r
  · -- the lock was free, and goes to this coroutine
    obtain ⟨hfree, hheld⟩ := hK.granted q s r t hr hgrants
    obtain rfl : holder = none := by
      cases holder with
      | none => rfl
      | some j => exact absurd (h.held.2 ⟨j, rfl⟩) hfree
    have houtside := h.outside hi hl (by simp) hne
    refine ⟨some i, h.set trans (.inl rfl) hlt ht ⟨fun _ => ⟨i, rfl⟩, fun _ => hheld⟩ h.order hpast
      h.valid (fun _ => id) (fun j hj => by simp [hj.symm]) (fun _ _ hj => by cases hj) ?_⟩
    intro l' hl'
    obtain rfl := Option.some.inj (hl.symm.trans hl')
    exact .within rfl (trans _ _ _ h.since ht) hpast ((houtside r t hE).1 hgrants hheld)
  · have hheld := hK.other q s r t hr hgrants
    refine ⟨holder, h.set trans (.inl rfl) hlt ht (hheld.trans h.held) h.order hpast h.valid
      (fun _ => id) (fun _ _ => Iff.rfl) (fun _ _ _ => rfl) ?_⟩
    intro l' hl'
    obtain rfl := Option.some.inj (hl.symm.trans hl')
    by_cases holds : holder = some i
    · obtain ⟨entered, hsince, hafter, hwithin⟩ := h.within hi hl holds
      exact .within holds hsince hafter (hwithin r t hE ht (hheld.2 (h.held.2 ⟨i, holds⟩)))
    · exact .outside holds ((h.outside hi hl holds hne r t hE).2 hgrants)

/-- A coroutine goes on by a block. -/
theorem Serialized.block (refl : ∀ s, R s s) {act : σ → σ} {next : σ → Coro σ Q A ε Unit}
    (h : Serialized K E R Ψ Φ s₀ ls ⟨s, tasks, some i⟩ log holder)
    (hlength : tasks.length = ls.length)
    (hi : tasks[i]? = some (.atomic act next)) (ht : R s (act s)) :
    ∃ log' holder', Serialized K E R Ψ Φ s₀ ls
      ⟨act s, tasks.set i (next s), some i⟩ log' holder' := by
  obtain ⟨hlt, -⟩ := List.getElem?_eq_some_iff.1 hi
  obtain ⟨l, hl⟩ : ∃ l, ls[i]? = some l := ⟨_, List.getElem?_eq_getElem (hlength ▸ hlt)⟩
  have hpast : ∀ a ∈ log, R a.left (act s) := fun a ha => trans _ _ _ (h.past a ha) ht
  have hne : ∀ x, Coro.atomic act next ≠ Pool.ended x := by rintro (_ | _) <;> nofun
  by_cases holds : holder = some i
  · obtain ⟨entered, hsince, hafter, ⟨hheld, hwithin⟩ | ⟨hfree, hended⟩⟩ := h.within hi hl holds
    · refine ⟨log, holder, h.set trans (.inr rfl) hlt ht
        ⟨fun _ => ⟨i, holds⟩, fun _ => hheld⟩ h.order
        hpast h.valid (fun _ => id) (fun _ _ => Iff.rfl) (fun _ _ _ => rfl) ?_⟩
      intro l' hl'
      obtain rfl := Option.some.inj (hl.symm.trans hl')
      exact .within holds hsince hafter hwithin
    · -- the section is left: it goes to the end of the order
      obtain ⟨x, hx, hΦ⟩ := hended.outcome
      refine ⟨log ++ [⟨i, l, entered, x, act s⟩], none, h.set trans (.inr rfl) hlt ht
        ⟨fun hheld => absurd hheld hfree, fun ⟨_, hj⟩ => by cases hj⟩ ?_ ?_ ?_
        (fun _ ha => List.mem_append_left _ ha) (fun j hj => by simp [holds, hj.symm])
        (fun j hj hholder => ?_) ?_⟩
      · rw [List.pairwise_append]
        refine ⟨h.order, List.pairwise_singleton _ _, fun a ha b hb => ?_⟩
        obtain rfl := List.mem_singleton.1 hb
        exact hafter a ha
      · intro a ha
        rcases List.mem_append.1 ha with ha | ha
        · exact hpast a ha
        · obtain rfl := List.mem_singleton.1 ha
          exact refl _
      · intro a ha
        rcases List.mem_append.1 ha with ha | ha
        · exact h.valid a ha
        · obtain rfl := List.mem_singleton.1 ha
          exact ⟨hl, hsince, trans _ _ _ h.since ht, hΦ⟩
      · exact absurd (Option.some.inj (hholder.symm.trans holds)) hj
      · intro l' _
        exact .left (by simp) (List.mem_append_right _ List.mem_cons_self) rfl hx
  · obtain ⟨hheld, houtside⟩ := h.outside hi hl holds hne
    refine ⟨log, holder, h.set trans (.inr rfl) hlt ht (hheld.trans h.held) h.order hpast h.valid
      (fun _ => id) (fun _ _ => Iff.rfl) (fun _ _ _ => rfl) ?_⟩
    intro l' hl'
    obtain rfl := Option.some.inj (hl.symm.trans hl')
    exact .outside holds houtside

omit trans in
/-- A coroutine has come to a request or to its end. -/
theorem Serialized.suspend (h : Serialized K E R Ψ Φ s₀ ls ⟨s, tasks, some i⟩ log holder)
    (hi : ∀ act next, tasks[i]? ≠ some (.atomic act next)) :
    Serialized K E R Ψ Φ s₀ ls ⟨s, tasks, none⟩ log holder := by
  refine ⟨h.held, h.holder_lt, h.order, h.since, h.past, h.valid, fun j q hq _ => ?_, h.position⟩
  by_cases hij : i = j
  · subst hij
    intro act next heq
    exact hi act next (heq ▸ hq)
  · exact h.idle j q hq (by simpa using hij)

/-- The environment moves the state. -/
theorem Serialized.drift (hK : K.Respects S)
    (h : Serialized K E R Ψ Φ s₀ ls ⟨s, tasks, none⟩ log holder)
    (hdrift : S.drifts s t) (ht : R s t) :
    Serialized K E R Ψ Φ s₀ ls ⟨t, tasks, none⟩ log holder := by
  refine ⟨(hK.drifts s t hdrift).trans h.held, h.holder_lt, h.order, trans _ _ _ h.since ht,
    fun a ha => trans _ _ _ (h.past a ha) ht, h.valid, h.idle, fun j q l hq hl => ?_⟩
  exact (h.position j q l hq hl).move trans (h.idle j q hq (by simp)) ht (fun _ => id) Iff.rfl
    fun _ => rfl

omit trans in
/-- A coroutine is called. -/
theorem Serialized.call (h : Serialized K E R Ψ Φ s₀ ls ⟨s, tasks, none⟩ log holder)
    (hlength : tasks.length = ls.length)
    (hp : K.Outside (E tasks.length) R (Ψ l) (Φ tasks.length l) p s) :
    Serialized K E R Ψ Φ s₀ (ls ++ [l]) ⟨s, tasks ++ [p], some tasks.length⟩ log holder := by
  have hold {j : ℕ} {q : Coro σ Q A ε Unit} (hq : (tasks ++ [p])[j]? = some q)
      (hj : j ≠ tasks.length) : tasks[j]? = some q ∧ j < tasks.length := by
    have hlt := (List.getElem?_eq_some_iff.1 hq).1
    rw [List.length_append, List.length_singleton] at hlt
    have hlt' : j < tasks.length := by omega
    exact ⟨by rwa [List.getElem?_append_left hlt'] at hq, hlt'⟩
  refine ⟨h.held, fun j hj => ?_, h.order, h.since, h.past, fun a ha => ?_, fun j q hq hj => ?_,
    fun j q m hq hm => ?_⟩
  · rw [List.length_append]
    exact Nat.lt_add_right _ (h.holder_lt j hj)
  · obtain ⟨hlabel, hΦ⟩ := h.valid a ha
    obtain ⟨hlt, -⟩ := List.getElem?_eq_some_iff.1 hlabel
    exact ⟨by rwa [List.getElem?_append_left hlt], hΦ⟩
  · exact h.idle j q (hold hq (by simpa using hj.symm)).1 (by simp)
  · by_cases hj : j = tasks.length
    · subst hj
      rw [List.getElem?_concat_length] at hq
      rw [hlength, List.getElem?_concat_length] at hm
      obtain rfl := Option.some.inj hq
      obtain rfl := Option.some.inj hm
      exact .outside (fun holds => absurd (h.holder_lt _ holds) (Nat.lt_irrefl _)) hp
    · obtain ⟨hq, hlt⟩ := hold hq hj
      rw [List.getElem?_append_left (hlength ▸ hlt)] at hm
      exact h.position j q m hq hm

/-- **Sections are serial.** In whatever pool a schedule leads to, the sections that were left are
in an order in which each was entered after those before it were left. -/
theorem Called.serialized (refl : ∀ s, R s s) (hK : K.Respects S) (hs₀ : ¬ K.held s₀)
    (outside : ∀ i l s, S.callable s (program l) → K.Outside (E i) R (Ψ l) (Φ i l) (program l) s)
    (steps : ∀ c c', Pool.Reachable S s₀ c → Pool.Step S c c' → R c.state c'.state)
    (h : Called S program s₀ ls asked c)
    (hE : ∀ a ∈ asked, E a.1 a.2.request a.2.answer a.2.after) :
    ∃ log holder, Serialized K E R Ψ Φ s₀ ls c log holder := by
  induction h with
  | start =>
    exact ⟨[], none, ⟨fun hheld => absurd hheld hs₀, fun ⟨_, hj⟩ => by cases hj⟩, nofun, .nil,
      refl _, by simp, by simp, by simp, by simp⟩
  | call h hl ih =>
    obtain ⟨log, holder, ih⟩ := ih hE
    exact ⟨log, holder, ih.call h.length (outside _ _ _ hl)⟩
  | resume h hi hr ih =>
    obtain ⟨hbefore, hlast⟩ := List.forall_mem_append.1 hE
    obtain ⟨log, holder, ih⟩ := ih hbefore
    obtain ⟨holder', h'⟩ := ih.resume trans hK h.length hi hr
      (hlast _ List.mem_cons_self) (steps _ _ h.reachable (.resume hi hr))
    exact ⟨log, holder', h'⟩
  | block h hi ih =>
    obtain ⟨log, holder, ih⟩ := ih hE
    exact ih.block trans refl h.length hi (steps _ _ h.reachable (.block hi))
  | suspend h hi ih =>
    obtain ⟨log, holder, ih⟩ := ih hE
    exact ⟨log, holder, ih.suspend hi⟩
  | drift h hu ih =>
    obtain ⟨log, holder, ih⟩ := ih hE
    exact ⟨log, holder, ih.drift trans hK hu (steps _ _ h.reachable (.drift hu))⟩

end Step

/-- A coroutine that has ended did so without a section, or left one. -/
theorem Serialized.outcome {x : Except ε Unit} (h : Serialized K E R Ψ Φ s₀ ls c log holder)
    (hi : c.tasks[i]? = some (Pool.ended x)) (hl : ls[i]? = some l) :
    Ψ l x ∨ ∃ a ∈ log, a.task = i ∧ R s₀ a.entered ∧ R s₀ a.left ∧ Φ i l a.entered x a.left := by
  cases h.position i _ l hi hl with
  | outside _ h =>
    cases x with
    | ok => exact .inl h
    | error => exact .inl h
  | within _ _ _ h => cases x <;> exact h.elim
  | @left a _ ha task heq =>
    obtain ⟨hlabel, hentered, hleft, hΦ⟩ := h.valid a ha
    subst task
    obtain rfl := Option.some.inj (hl.symm.trans hlabel)
    obtain rfl := Pool.ended_injective heq
    exact .inr ⟨a, ha, rfl, hentered, hleft, hΦ⟩

/-- **Of two coroutines** that left a section, one left it before the other entered its own. -/
theorem Serialized.before_or_after {m : L} {j : ℕ} {x y : Except ε Unit}
    (h : Serialized K E R Ψ Φ s₀ ls c log holder) (hij : i ≠ j)
    (hi : c.tasks[i]? = some (Pool.ended x)) (hl : ls[i]? = some l) (hx : ¬ Ψ l x)
    (hj : c.tasks[j]? = some (Pool.ended y)) (hm : ls[j]? = some m) (hy : ¬ Ψ m y) :
    ∃ a b : Section L σ ε, R s₀ a.entered ∧ R s₀ a.left ∧ Φ i l a.entered x a.left ∧
      R s₀ b.entered ∧ R s₀ b.left ∧ Φ j m b.entered y b.left ∧
      (R a.left b.entered ∨ R b.left a.entered) := by
  obtain ⟨a, ha, rfl, ha₁, ha₂, hΦa⟩ := (h.outcome hi hl).resolve_left hx
  obtain ⟨b, hb, rfl, hb₁, hb₂, hΦb⟩ := (h.outcome hj hm).resolve_left hy
  have hne : a ≠ b := fun heq => hij (congrArg Section.task heq)
  have hsymm : Std.Symm fun a b : Section L σ ε => R a.left b.entered ∨ R b.left a.entered :=
    ⟨fun _ _ => Or.symm⟩
  have hpairwise : log.Pairwise fun a b => R a.left b.entered ∨ R b.left a.entered :=
    h.order.imp Or.inl
  exact ⟨a, b, ha₁, ha₂, hΦa, hb₁, hb₂, hΦb, hpairwise.forall ha hb hne⟩

end DecentRegistry.Coroutine
