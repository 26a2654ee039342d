import DecentRegistry.Foundations.Fallible
import Mathlib.Data.List.Chain

/-!
# Replays

A replay reads a state off the first entry of a list and folds a fallible step over the others.
`Replays` is its graph, built from the front one entry at a time, so that a property of replays is
proved by one case for the anchor and one for a step; `replays_iff` is its agreement with the fold.
`foldlM_isChain` turns what one step establishes between the entry the state stands at and the
entry it consumes into a property of all consecutive entries.
-/

namespace DecentRegistry.Replay

open Fallible

variable {ε σ α : Type} {step : σ → α → Except ε σ}

@[simp] theorem foldlM_nil_eq_ok {s t : σ} : [].foldlM step s = .ok t ↔ s = t := by
  simp [List.foldlM_nil]

@[simp] theorem foldlM_cons_eq_ok {a : α} {l : List α} {s t : σ} :
    (a :: l).foldlM step s = .ok t ↔ ∃ r, step s a = .ok r ∧ l.foldlM step r = .ok t := by
  simp [List.foldlM_cons]

/-- A replay of `l ++ [a]` is a replay of `l` and one more step. -/
theorem foldlM_snoc_eq_ok {a : α} {l : List α} {s t : σ} :
    (l ++ [a]).foldlM step s = .ok t ↔ ∃ r, l.foldlM step s = .ok r ∧ step r a = .ok t := by
  simp [List.foldlM_append]

/-- If `StandsAt s e` says that the state `s` was reached by consuming `e`, and consuming `a` there
establishes `R e a`, then `R` holds of all consecutive entries of a replayed list. -/
theorem foldlM_isChain (StandsAt : σ → α → Prop) (R : α → α → Prop)
    (step_spec : ∀ s e a t, StandsAt s e → step s a = .ok t → R e a ∧ StandsAt t a)
    {l : List α} {s t : σ} {e : α} (hs : StandsAt s e) (h : l.foldlM step s = .ok t) :
    List.IsChain R (e :: l) := by
  induction l generalizing s e with
  | nil => exact .singleton e
  | cons a l ih =>
    obtain ⟨r, hr, hl⟩ := foldlM_cons_eq_ok.1 h
    obtain ⟨related, standsAt⟩ := step_spec s e a r hs hr
    exact .cons_cons related (ih standsAt hl)

/-- The replays of a list: from an anchor, one step for each further entry. -/
inductive Replays (anchored : α → σ → Prop) (step : σ → α → Except ε σ) : List α → σ → Prop
  | anchor {a : α} {s : σ} (h : anchored a s) : Replays anchored step [a] s
  | step {l : List α} {a : α} {s t : σ} (run : Replays anchored step l s) (h : step s a = .ok t) :
      Replays anchored step (l ++ [a]) t

variable {anchored : α → σ → Prop}

theorem Replays.foldl {l rest : List α} {s t : σ} (run : Replays anchored step l s)
    (h : rest.foldlM step s = .ok t) : Replays anchored step (l ++ rest) t := by
  induction rest generalizing l s with
  | nil =>
    obtain rfl := foldlM_nil_eq_ok.1 h
    simpa using run
  | cons a rest ih =>
    obtain ⟨r, hr, hrest⟩ := foldlM_cons_eq_ok.1 h
    simpa using ih (run.step hr) hrest

/-- A replay is a fold from the anchor. -/
theorem replays_iff {l : List α} {t : σ} :
    Replays anchored step l t ↔
      ∃ a rest s, l = a :: rest ∧ anchored a s ∧ rest.foldlM step s = .ok t := by
  constructor
  · intro run
    induction run with
    | anchor h => exact ⟨_, [], _, rfl, h, foldlM_nil_eq_ok.2 rfl⟩
    | step _ h ih =>
      obtain ⟨a, rest, s, rfl, ha, hrest⟩ := ih
      exact ⟨a, rest ++ [_], s, rfl, ha, foldlM_snoc_eq_ok.2 ⟨_, hrest, h⟩⟩
  · rintro ⟨a, rest, s, rfl, ha, hrest⟩
    exact (Replays.anchor ha).foldl hrest

/-- The last step of a replay of more than the anchor. -/
theorem Replays.snoc_inv {l : List α} {a : α} {t : σ} (run : Replays anchored step (l ++ [a]) t)
    (hl : l ≠ []) : ∃ s, Replays anchored step l s ∧ step s a = .ok t := by
  generalize hm : l ++ [a] = m at run
  cases run with
  | @anchor b _ h =>
    have hm' : l ++ [a] = [] ++ [b] := hm
    exact absurd (List.append_inj' hm' rfl).1 hl
  | @step l' b s _ run h =>
    obtain ⟨rfl, hb⟩ := List.append_inj' hm rfl
    obtain rfl := List.singleton_inj.1 hb
    exact ⟨s, run, h⟩

/-- A replay goes through every beginning of the list. -/
theorem Replays.append_inv {l m : List α} {t : σ} (run : Replays anchored step (l ++ m) t)
    (hl : l ≠ []) : ∃ s, Replays anchored step l s ∧ m.foldlM step s = .ok t := by
  induction m using List.reverseRecOn generalizing t with
  | nil => exact ⟨t, by simpa using run, foldlM_nil_eq_ok.2 rfl⟩
  | append_singleton m a ih =>
    rw [← List.append_assoc] at run
    obtain ⟨r, run', hr⟩ := run.snoc_inv (by simp [hl])
    obtain ⟨s, hs, hm⟩ := ih run'
    exact ⟨s, hs, foldlM_snoc_eq_ok.2 ⟨r, hm, hr⟩⟩

/-- Where there is one anchor state at most, a list has one replay at most. -/
theorem Replays.unique (functional : ∀ a s t, anchored a s → anchored a t → s = t) {l : List α}
    {s t : σ} (h : Replays anchored step l s) (h' : Replays anchored step l t) : s = t := by
  obtain ⟨a, rest, r, rfl, ha, hrest⟩ := replays_iff.1 h
  obtain ⟨a', rest', r', heq, ha', hrest'⟩ := replays_iff.1 h'
  obtain ⟨rfl, rfl⟩ := List.cons.inj heq
  obtain rfl := functional _ _ _ ha ha'
  exact Except.ok.inj (hrest.symm.trans hrest')

end DecentRegistry.Replay
