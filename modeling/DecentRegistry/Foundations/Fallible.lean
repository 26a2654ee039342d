import Mathlib.Data.List.Basic

/-!
# Computations that raise

Programs that raise exceptions are read as `Except ε α`. This module has the three shapes such
programs are built from, each with the lemma that says when it succeeds:

* `raiseIf c e` is `if c: raise e` (`raiseIf_eq_ok`);
* `orRaise o e` reads an optional value, raising `e` when it is absent (`orRaise_eq_ok`);
* `rewrap x e` is `try: x except Exception: raise e` (`rewrap_eq_ok`).

With `bind_eq_ok` they turn a successful run of a whole `do` block into the list of its guards,
by one `simp only`.
-/

namespace DecentRegistry.Fallible

variable {ε α β : Type}

/-- `if c: raise e`. -/
def raiseIf (c : Prop) [Decidable c] (e : ε) : Except ε Unit := if c then .error e else .ok ()

/-- The value of an optional, or an exception. -/
def orRaise (o : Option α) (e : ε) : Except ε α :=
  match o with
  | some a => .ok a
  | none => .error e

/-- `try: x except Exception: raise e`. -/
def rewrap (x : Except ε α) (e : ε) : Except ε α :=
  match x with
  | .ok a => .ok a
  | .error _ => .error e

@[simp] theorem bind_eq_ok {x : Except ε α} {f : α → Except ε β} {b : β} :
    (x >>= f) = .ok b ↔ ∃ a, x = .ok a ∧ f a = .ok b := by
  cases x <;> simp [Bind.bind, Except.bind]

@[simp] theorem ok_bind {a : α} {f : α → Except ε β} : (Except.ok a >>= f) = f a := rfl

@[simp] theorem error_bind {e : ε} {f : α → Except ε β} : (Except.error e >>= f) = .error e := rfl

@[simp] theorem map_eq_ok {x : Except ε α} {f : α → β} {b : β} :
    (f <$> x) = .ok b ↔ ∃ a, x = .ok a ∧ f a = b := by
  cases x <;> simp [Functor.map, Except.map]

@[simp] theorem pure_eq_ok {a b : α} : (pure a : Except ε α) = .ok b ↔ a = b := by
  simp [pure, Except.pure]

@[simp] theorem throw_eq_ok_iff {e : ε} {a : α} : (throw e : Except ε α) = .ok a ↔ False := by
  simp [throw, throwThe, MonadExceptOf.throw]

@[simp] theorem raiseIf_eq_ok {c : Prop} [Decidable c] {e : ε} {u : Unit} :
    raiseIf c e = .ok u ↔ ¬ c := by
  by_cases h : c <;> simp [raiseIf, h]

theorem raiseIf_pos {c : Prop} [Decidable c] {e : ε} (h : c) : raiseIf c e = .error e := by
  simp [raiseIf, h]

theorem raiseIf_neg {c : Prop} [Decidable c] {e : ε} (h : ¬ c) : raiseIf c e = .ok () := by
  simp [raiseIf, h]

@[simp] theorem orRaise_eq_ok {o : Option α} {e : ε} {a : α} :
    orRaise o e = .ok a ↔ o = some a := by
  cases o <;> simp [orRaise]

@[simp] theorem rewrap_eq_ok {x : Except ε α} {e : ε} {a : α} :
    rewrap x e = .ok a ↔ x = .ok a := by
  cases x <;> simp [rewrap]

/-- What a computation that returns returns. -/
def valueOf (x : Except ε α) (h : x.isOk = true) : α :=
  match x, h with
  | .ok a, _ => a

theorem eq_ok_valueOf {x : Except ε α} (h : x.isOk = true) : x = .ok (valueOf x h) := by
  cases x with
  | error _ => cases h
  | ok _ => rfl

theorem isOk_iff {x : Except ε α} : x.isOk = true ↔ ∃ a, x = .ok a := by
  cases x with
  | error _ => simp [Except.isOk, Except.toBool]
  | ok a => simp [Except.isOk, Except.toBool]

/-- A computation either raises or returns. -/
theorem raises_or_returns (x : Except ε α) : (∃ e, x = .error e) ∨ ∃ a, x = .ok a := by
  cases x with
  | error e => exact .inl ⟨e, rfl⟩
  | ok a => exact .inr ⟨a, rfl⟩

theorem eq_error_of_forall_ne_ok {x : Except ε α} (h : ∀ a, x ≠ .ok a) : ∃ e, x = .error e := by
  obtain he | ⟨a, ha⟩ := raises_or_returns x
  · exact he
  · exact absurd ha (h a)

end DecentRegistry.Fallible
