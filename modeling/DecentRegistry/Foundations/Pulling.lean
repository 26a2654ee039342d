import Mathlib.Order.Lattice
import Mathlib.Data.List.Sublists

/-!
# Pulling

Several parties have positions, and a party that pulls from another goes up to where that one is. No
position goes down (`le_pulls`), and what one party has reaches another along every path of pulls,
whatever pulls come in between (`Leads.le_pulls`).
-/

namespace DecentRegistry.Pulling

variable {ι α : Type} [DecidableEq ι] [SemilatticeSup α]

/-- The first party of the pair pulls from the second. -/
def pull (p : ι → α) (e : ι × ι) : ι → α := Function.update p e.1 (p e.1 ⊔ p e.2)

/-- Pulls, one after another. -/
def pulls (p : ι → α) (es : List (ι × ι)) : ι → α := es.foldl pull p

variable {p : ι → α} {e : ι × ι} {es : List (ι × ι)}

@[simp] theorem pulls_nil : pulls p [] = p := rfl

@[simp] theorem pulls_cons : pulls p (e :: es) = pulls (pull p e) es := rfl

@[simp] theorem pulls_concat : pulls p (es ++ [e]) = pull (pulls p es) e := by
  simp [pulls]

@[simp] theorem pull_self : pull p e e.1 = p e.1 ⊔ p e.2 := by simp [pull]

theorem pull_of_ne {k : ι} (h : k ≠ e.1) : pull p e k = p k := by simp [pull, h]

theorem le_pull (k : ι) : p k ≤ pull p e k := by
  by_cases h : k = e.1
  · subst h
    rw [pull_self]
    exact le_sup_left
  · rw [pull_of_ne h]

/-- **No position goes down.** -/
theorem le_pulls (k : ι) : p k ≤ pulls p es k := by
  induction es generalizing p with
  | nil => exact le_rfl
  | cons e es ih => exact (le_pull k).trans ih

/-- Pulls that lead from one party to another, each from the party that pulled before. -/
inductive Leads : ι → List (ι × ι) → ι → Prop
  | nil (i : ι) : Leads i [] i
  | cons {i j k : ι} {path : List (ι × ι)} (h : Leads j path k) : Leads i ((j, i) :: path) k

/-- **What a party has arrives** at the end of every path that leads from it, whatever other pulls
there are in between. -/
theorem Leads.le_pulls {i k : ι} {path : List (ι × ι)} (h : Leads i path k)
    (hsublist : path.Sublist es) : p i ≤ pulls p es k := by
  induction hsublist generalizing p i with
  | slnil =>
    cases h
    exact le_rfl
  | cons e _ ih => exact (le_pull i).trans (ih h)
  | cons_cons _ _ ih =>
    cases h with
    | @cons _ j _ _ h =>
      calc p i ≤ pull p (j, i) j := by
            rw [show pull p (j, i) j = p j ⊔ p i from pull_self]
            exact le_sup_right
        _ ≤ _ := ih h

end DecentRegistry.Pulling
