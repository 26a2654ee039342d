import DecentRegistry.Foundations.Coroutine
import Mathlib.Data.Nat.Notation

/-!
# Cooperative scheduling

A pool of coroutines that share a state. One runs at a time, from the answer to its request up to
its next request or its end, block by block; new ones may be called, and the environment may move
the state, whenever none runs.

* `Reachable.step_guarantee` is the rule for the guarantee of all of them: a relation that every
  callable coroutine `Ensures`, and that the environment keeps, is kept by every step of every
  schedule.
* `Serial` are the runs in which the coroutines follow one another; `Serial.invariant` is the rule
  for an invariant and a relation between the states before and after each. -/

namespace DecentRegistry.Coroutine

variable {σ Q : Type} {A : Q → Type} {ε : Type}

/-- The shared state, the coroutines called so far, and which of them runs. -/
structure Pool (σ Q : Type) (A : Q → Type) (ε : Type) where
  state : σ
  tasks : List (Coro σ Q A ε Unit)
  running : Option ℕ

/-- What may be called in a state, how requests are answered, and how the state moves by itself. -/
structure Schedule (σ Q : Type) (A : Q → Type) (ε : Type) where
  callable : σ → Coro σ Q A ε Unit → Prop
  answers : (q : Q) → σ → Except ε (A q) → σ → Prop
  drifts : σ → σ → Prop

namespace Pool

variable (S : Schedule σ Q A ε)

/-- One step of a pool. -/
inductive Step : Pool σ Q A ε → Pool σ Q A ε → Prop
  | call {s : σ} {tasks : List (Coro σ Q A ε Unit)} {p : Coro σ Q A ε Unit} (hp : S.callable s p) :
      Step ⟨s, tasks, none⟩ ⟨s, tasks ++ [p], some tasks.length⟩
  | resume {s t : σ} {tasks : List (Coro σ Q A ε Unit)} {i : ℕ} {q : Q}
      {next : Except ε (A q) → Coro σ Q A ε Unit} {r : Except ε (A q)}
      (h : tasks[i]? = some (.await q next)) (hr : S.answers q s r t) :
      Step ⟨s, tasks, none⟩ ⟨t, tasks.set i (next r), some i⟩
  | block {s : σ} {tasks : List (Coro σ Q A ε Unit)} {i : ℕ} {act : σ → σ}
      {next : σ → Coro σ Q A ε Unit} (h : tasks[i]? = some (.atomic act next)) :
      Step ⟨s, tasks, some i⟩ ⟨act s, tasks.set i (next s), some i⟩
  | suspend {s : σ} {tasks : List (Coro σ Q A ε Unit)} {i : ℕ}
      (h : ∀ act next, tasks[i]? ≠ some (.atomic act next)) :
      Step ⟨s, tasks, some i⟩ ⟨s, tasks, none⟩
  | drift {s t : σ} {tasks : List (Coro σ Q A ε Unit)} (h : S.drifts s t) :
      Step ⟨s, tasks, none⟩ ⟨t, tasks, none⟩

/-- The pools reached from a state with no coroutine. -/
def Reachable (s : σ) (c : Pool σ Q A ε) : Prop :=
  Relation.ReflTransGen (Step S) ⟨s, [], none⟩ c

/-- What is left of a coroutine that ended. -/
def ended : Except ε Unit → Coro σ Q A ε Unit
  | .ok a => .ret a
  | .error e => .raise e

theorem ended_injective {x y : Except ε Unit}
    (h : (ended x : Coro σ Q A ε Unit) = ended y) : x = y := by
  cases x with
  | ok => cases y with
    | ok => rfl
    | error => cases h
  | error => cases y with
    | ok => cases h
    | error =>
      cases h
      rfl

variable {S}

/-- A run of one coroutine, on its own, is a run of the pool. -/
theorem steps_of_runs {p : Coro σ Q A ε Unit} {s t : σ} {x : Except ε Unit}
    (h : Runs S.answers p s x t) {tasks : List (Coro σ Q A ε Unit)} {i : ℕ}
    (hp : tasks[i]? = some p) :
    Relation.ReflTransGen (Step S) ⟨s, tasks, some i⟩ ⟨t, tasks.set i (ended x), none⟩ := by
  have hset {q r : Coro σ Q A ε Unit} {tasks : List (Coro σ Q A ε Unit)}
      (hq : tasks[i]? = some q) : (tasks.set i r)[i]? = some r := by
    obtain ⟨hi, -⟩ := List.getElem?_eq_some_iff.1 hq
    simp [hi]
  have hsame {q : Coro σ Q A ε Unit} {tasks : List (Coro σ Q A ε Unit)}
      (hq : tasks[i]? = some q) : tasks.set i q = tasks := by
    obtain ⟨hi, rfl⟩ := List.getElem?_eq_some_iff.1 hq
    exact List.set_getElem_self hi
  induction h generalizing tasks with
  | @ret a s =>
    rw [show ended (.ok a) = .ret a from rfl, hsame hp]
    exact .single (.suspend fun act next h => by simp [hp] at h)
  | @raise e s =>
    rw [show ended (.error e) = .raise e from rfl, hsame hp]
    exact .single (.suspend fun act next h => by simp [hp] at h)
  | atomic _ ih =>
    have hrest := ih (hset hp)
    rw [List.set_set] at hrest
    exact .head (.block hp) hrest
  | await hr _ ih =>
    have hrest := ih (hset hp)
    rw [List.set_set] at hrest
    exact .head (.suspend fun act next h => by simp [hp] at h) (.head (.resume hp hr) hrest)

/-- A coroutine that is called may run to its end before anything else does. -/
theorem Reachable.call {s t : σ} {c : Pool σ Q A ε} {p : Coro σ Q A ε Unit} {x : Except ε Unit}
    (h : Reachable S s c) (hidle : c.running = none) (hp : S.callable c.state p)
    (hruns : Runs S.answers p c.state x t) :
    Reachable S s ⟨t, c.tasks ++ [ended x], none⟩ := by
  obtain ⟨s', tasks, running⟩ := c
  obtain rfl : running = none := hidle
  have hlast : (tasks ++ [p])[tasks.length]? = some p := by simp
  have hsteps := steps_of_runs hruns hlast
  rw [List.set_append_right _ _ (Nat.le_refl _)] at hsteps
  simp only [Nat.sub_self, List.set_cons_zero] at hsteps
  exact (Relation.ReflTransGen.tail h (.call hp)).trans hsteps

/-- Steps that change a value go through a first one that does. -/
theorem exists_step_of_change {β : Type} (f : Pool σ Q A ε → β) {c c' : Pool σ Q A ε}
    (h : Relation.ReflTransGen (Step S) c c') (hne : f c' ≠ f c) :
    ∃ d d', Relation.ReflTransGen (Step S) c d ∧ Step S d d' ∧ f d = f c ∧ f d' ≠ f c := by
  induction h with
  | refl => exact absurd rfl hne
  | @tail d d' hd hstep ih =>
    by_cases hsame : f d = f c
    · exact ⟨d, d', hd, hstep, hsame, hne⟩
    · exact ih hsame

/-- The weakest precondition for keeping a relation in the rest of a run. -/
abbrev Keeps (G : σ → σ → Prop) (p : Coro σ Q A ε Unit) (s : σ) : Prop :=
  wp ⟨fun _ _ _ _ => True, G⟩ p (fun _ _ => True) s

/-- Every coroutine keeps the relation: the running one from the present state, the others from
whatever state they are resumed in. -/
def Disciplined (G : σ → σ → Prop) (c : Pool σ Q A ε) : Prop :=
  ∀ i p, c.tasks[i]? = some p → if c.running = some i then Keeps G p c.state else ∀ s, Keeps G p s

variable {G : σ → σ → Prop}

/-- A suspended coroutine does not care for the state. -/
theorem keeps_of_suspended {p : Coro σ Q A ε Unit} {s : σ} (h : Keeps G p s)
    (hp : ∀ act next, p ≠ .atomic act next) (t : σ) : Keeps G p t := by
  cases p with
  | ret => trivial
  | raise => trivial
  | atomic act next => exact absurd rfl (hp act next)
  | await q next => exact fun r t' _ => h r t' trivial

/-- Replacing the running coroutine. -/
theorem Disciplined.set {s t : σ} {tasks : List (Coro σ Q A ε Unit)} {i : ℕ} {running : Option ℕ}
    {p : Coro σ Q A ε Unit} (h : Disciplined G ⟨s, tasks, running⟩)
    (hrunning : running = none ∨ running = some i) (hp : Keeps G p t) :
    Disciplined G ⟨t, tasks.set i p, some i⟩ := by
  intro j q hq
  dsimp only at hq ⊢
  by_cases hij : i = j
  · subst hij
    rw [List.getElem?_set] at hq
    split at hq
    · split at hq
      · obtain rfl := Option.some.inj hq
        simpa using hp
      · cases hq
    · exact absurd rfl ‹_›
  · rw [List.getElem?_set_ne hij] at hq
    have hj := h j q hq
    rw [if_neg (by simpa using hij)]
    rw [if_neg] at hj
    · exact hj
    · rcases hrunning with rfl | rfl <;> simp [hij]

/-- **One step** keeps the discipline and the relation. -/
theorem Step.disciplined (refl : ∀ s, G s s)
    (callable : ∀ s p, S.callable s p → Ensures G p fun _ => True)
    (answers : ∀ q s r t, S.answers q s r t → G s t) (drifts : ∀ s t, S.drifts s t → G s t)
    {c c' : Pool σ Q A ε} (hc : Disciplined G c) (h : Step S c c') :
    Disciplined G c' ∧ G c.state c'.state := by
  cases h with
  | @call s tasks p hp =>
    refine ⟨fun i q hq => ?_, refl _⟩
    have hkeeps (t : σ) : Keeps G p t :=
      wp_mono (callable _ p hp t) fun _ _ _ => trivial
    dsimp only at hq ⊢
    rw [List.getElem?_append] at hq
    split at hq
    · have := hc i q hq
      rw [if_neg (by simp)] at this
      rw [if_neg (by simp; omega)]
      exact this
    · obtain ⟨rfl, rfl⟩ : i = tasks.length ∧ p = q := by
        rw [List.getElem?_singleton] at hq
        split at hq
        · exact ⟨by omega, Option.some.inj hq⟩
        · cases hq
      simpa using hkeeps s
  | @resume s t tasks i q next r h hr =>
    have hi := hc i _ h
    rw [if_neg (by simp)] at hi
    exact ⟨hc.set (.inl rfl) (hi s r t trivial), answers _ _ _ _ hr⟩
  | @block s tasks i act next h =>
    have hi := hc i _ h
    rw [if_pos rfl] at hi
    exact ⟨hc.set (.inr rfl) hi.2, hi.1⟩
  | @suspend s tasks i h =>
    refine ⟨fun j q hq => ?_, refl _⟩
    dsimp only at hq ⊢
    rw [if_neg (by simp)]
    have hj := hc j q hq
    dsimp only at hj
    split at hj
    · rename_i hij
      obtain rfl := Option.some.inj hij
      exact keeps_of_suspended hj fun act next hp => h act next (hp ▸ hq)
    · exact hj
  | @drift s t tasks h =>
    refine ⟨fun i q hq => ?_, drifts _ _ h⟩
    have hi := hc i q hq
    rw [if_neg (by simp)] at hi ⊢
    exact hi

/-- **Every step of every schedule** keeps what the callable coroutines ensure and the environment
keeps. -/
theorem Reachable.step_guarantee (refl : ∀ s, G s s)
    (callable : ∀ s p, S.callable s p → Ensures G p fun _ => True)
    (answers : ∀ q s r t, S.answers q s r t → G s t) (drifts : ∀ s t, S.drifts s t → G s t)
    {s : σ} {c : Pool σ Q A ε} (h : Reachable S s c) :
    Disciplined G c ∧ ∀ c', Step S c c' → G c.state c'.state := by
  have hc : Disciplined G c := by
    induction h with
    | refl =>
      intro i p hp
      simp at hp
    | tail _ hstep ih => exact (hstep.disciplined refl callable answers drifts ih).1
  exact ⟨hc, fun c' hstep => (hstep.disciplined refl callable answers drifts hc).2⟩

end Pool

/-! ## One coroutine after another -/

variable (S : Schedule σ Q A ε)

/-- A coroutine that is called and runs to its end, or a move of the environment. -/
inductive SerialStep : σ → σ → Prop
  | call {s t : σ} {p : Coro σ Q A ε Unit} {x : Except ε Unit} (hp : S.callable s p)
      (h : Runs S.answers p s x t) : SerialStep s t
  | drift {s t : σ} (h : S.drifts s t) : SerialStep s t

/-- The states that coroutines which follow one another lead to. -/
def Serial : σ → σ → Prop := Relation.ReflTransGen (SerialStep S)

variable {S}

/-- An invariant that every call keeps, and with it a relation between the states before and
after. -/
theorem Serial.invariant {I : σ → Prop} {R : σ → σ → Prop} (refl : ∀ s, I s → R s s)
    (trans : ∀ r s t, R r s → R s t → R r t)
    (call : ∀ s p, I s → S.callable s p →
      wp ⟨S.answers, fun _ _ => True⟩ p (fun _ t => I t ∧ R s t) s)
    (drift : ∀ s t, I s → S.drifts s t → I t ∧ R s t) {s t : σ} (h : Serial S s t) (hs : I s) :
    I t ∧ R s t := by
  induction h with
  | refl => exact ⟨hs, refl _ hs⟩
  | tail _ hstep ih =>
    obtain ⟨hI, hR⟩ := ih
    obtain ⟨hI', hR'⟩ : I _ ∧ R _ _ := by
      cases hstep with
      | call hp hruns => exact Runs.sound (c := ⟨S.answers, fun _ _ => True⟩) hruns (call _ _ hI hp)
      | drift hdrift => exact drift _ _ hI hdrift
    exact ⟨hI', trans _ _ _ hR hR'⟩

end DecentRegistry.Coroutine
