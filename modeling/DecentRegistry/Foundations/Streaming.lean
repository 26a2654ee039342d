import Mathlib.Data.List.Basic

/-!
# Machines that read in chunks

A machine that takes one item at a time, each of which delivers a chunk of data, and has an outcome
for each. Where its state is determined by the data delivered so far, however that was divided, and
it refuses an item exactly when the data delivered with it is not admitted, it refuses no item of a
list exactly when the whole data is admitted (`ReadsChunks.forall_accepts_iff`): no division of the
data makes a difference. -/

namespace DecentRegistry.Streaming

variable {σ α ω δ : Type} (step : σ → α → ω × σ)

/-- The outcomes of a list of items. -/
def outcomes : σ → List α → List ω
  | _, [] => []
  | s, a :: rest => (step s a).1 :: outcomes (step s a).2 rest

/-- The state after a list of items. -/
def after : σ → List α → σ
  | s, [] => s
  | s, a :: rest => after (step s a).2 rest

variable {step} {s : σ} {a : α} {items rest : List α}

@[simp] theorem outcomes_nil : outcomes step s [] = [] := rfl

@[simp] theorem outcomes_cons :
    outcomes step s (a :: rest) = (step s a).1 :: outcomes step (step s a).2 rest := rfl

@[simp] theorem after_nil : after step s [] = s := rfl

@[simp] theorem after_cons : after step s (a :: rest) = after step (step s a).2 rest := rfl

variable {chunk : α → List δ} {Allowed : α → Prop} {Inv : List δ → σ → Prop} {read : List δ}

/-- What every item keeps holds after a list of items, of the data they delivered. -/
theorem inv_after (keeps : ∀ read s a, Inv read s → Allowed a → Inv (read ++ chunk a) (step s a).2)
    (hs : Inv read s) (hitems : ∀ a ∈ items, Allowed a) :
    Inv (read ++ items.flatMap chunk) (after step s items) := by
  induction items generalizing read s with
  | nil => simpa using hs
  | cons a items ih =>
    have ha := hitems a List.mem_cons_self
    have hnext := ih (keeps read s a hs ha) fun b hb => hitems b (List.mem_cons_of_mem a hb)
    rwa [List.append_assoc] at hnext

/-- The machine accepts an item exactly when the data delivered so far is admitted, and its state is
then determined by that data. -/
structure ReadsChunks (step : σ → α → ω × σ) (chunk : α → List δ) (Allowed : α → Prop)
    (Accepts : ω → Prop) (Inv : List δ → σ → Prop) (Admitted : List δ → Prop) : Prop where
  of_append : ∀ read rest, Admitted (read ++ rest) → Admitted read
  admitted : ∀ read s, Inv read s → Admitted read
  accepts_iff : ∀ read s a, Inv read s → Allowed a →
    (Accepts (step s a).1 ↔ Admitted (read ++ chunk a))
  keeps : ∀ read s a, Inv read s → Allowed a → Admitted (read ++ chunk a) →
    Inv (read ++ chunk a) (step s a).2

namespace ReadsChunks

variable {Accepts : ω → Prop} {Admitted : List δ → Prop}

/-- **Every item is accepted exactly when the whole data is admitted.** -/
theorem forall_accepts_iff (h : ReadsChunks step chunk Allowed Accepts Inv Admitted)
    (hs : Inv read s) (hitems : ∀ a ∈ items, Allowed a) :
    (∀ r ∈ outcomes step s items, Accepts r) ↔ Admitted (read ++ items.flatMap chunk) := by
  induction items generalizing read s with
  | nil => simpa using h.admitted read s hs
  | cons a items ih =>
    have ha := hitems a List.mem_cons_self
    have hrest := fun b hb => hitems b (List.mem_cons_of_mem a hb)
    rw [outcomes_cons, List.forall_mem_cons, h.accepts_iff read s a hs ha, List.flatMap_cons,
      ← List.append_assoc]
    constructor
    · intro hall
      exact (ih (h.keeps read s a hs ha hall.1) hrest).1 hall.2
    · intro hadmitted
      have hnext := h.of_append _ _ hadmitted
      exact ⟨hnext, (ih (h.keeps read s a hs ha hnext) hrest).2 hadmitted⟩

/-- The state after data that is admitted. -/
theorem inv_of_admitted (h : ReadsChunks step chunk Allowed Accepts Inv Admitted)
    (hs : Inv read s) (hitems : ∀ a ∈ items, Allowed a)
    (hadmitted : Admitted (read ++ items.flatMap chunk)) :
    Inv (read ++ items.flatMap chunk) (after step s items) := by
  induction items generalizing read s with
  | nil => simpa using hs
  | cons a items ih =>
    have ha := hitems a List.mem_cons_self
    rw [List.flatMap_cons, ← List.append_assoc] at hadmitted ⊢
    have hnext := h.keeps read s a hs ha (h.of_append _ _ hadmitted)
    exact ih hnext (fun b hb => hitems b (List.mem_cons_of_mem a hb)) hadmitted

end ReadsChunks

end DecentRegistry.Streaming
