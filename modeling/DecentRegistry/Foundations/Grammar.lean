import Mathlib.Computability.Language

/-!
# Grammars as languages

The productions of a grammar are languages, with Mathlib's union, concatenation and Kleene star.
This module adds the terminals (`letter`, `exactly`), the bounded repetition `atMost`, and the
letters of a language: `Over p l` says that every letter of every word of `l` satisfies `p`, and is
carried from the terminals through the productions by one lemma for each operation. -/

namespace DecentRegistry.Grammar

open Computability

variable {α : Type}

/-- One letter of a class. -/
def letter (p : α → Bool) : Language α := {s | ∃ c, p c = true ∧ s = [c]}

/-- These letters. -/
def exactly (s : List α) : Language α := {s}

/-- At most `n` words of `l`, one after the other. -/
def atMost (n : ℕ) (l : Language α) : Language α := {s | ∃ k ≤ n, s ∈ l ^ k}

variable {p q : α → Bool} {l m : Language α} {s t : List α} {c : α} {n : ℕ}

theorem singleton_mem_letter (h : p c = true) : [c] ∈ letter p := ⟨c, h, rfl⟩

theorem mem_exactly : s ∈ exactly t ↔ s = t := Iff.rfl

theorem append_mem_kstar (hs : s ∈ l) (ht : t ∈ l∗) : s ++ t ∈ l∗ := by
  obtain ⟨words, rfl, hwords⟩ := Language.mem_kstar.1 ht
  have hall : ∀ w ∈ s :: words, w ∈ l := List.forall_mem_cons.2 ⟨hs, hwords⟩
  exact Language.join_mem_kstar hall

theorem mem_kstar_of_forall (h : ∀ c ∈ s, p c = true) : s ∈ (letter p)∗ := by
  induction s with
  | nil => exact Language.nil_mem_kstar _
  | cons c s ih =>
    obtain ⟨hc, hs⟩ := List.forall_mem_cons.1 h
    exact append_mem_kstar (singleton_mem_letter hc) (ih hs)

theorem cons_mem_mul (ht : t ∈ l) : c :: t ∈ exactly [c] * l :=
  Language.mem_mul.2 ⟨[c], rfl, t, ht, rfl⟩

/-- One or more words. -/
theorem mem_mul_kstar (h : s ∈ l∗) (hs : s ≠ []) : s ∈ l * l∗ := by
  rw [← Language.one_add_self_mul_kstar_eq_kstar, Language.mem_add, Language.mem_one] at h
  exact h.resolve_left hs

/-! ## The letters of a language -/

/-- Every letter of every word satisfies `p`. -/
def Over (P : α → Prop) (l : Language α) : Prop := ∀ s ∈ l, ∀ c ∈ s, P c

variable {P : α → Prop}

theorem over_letter (h : ∀ c, p c = true → P c) : Over P (letter p) := by
  rintro _ ⟨c, hc, rfl⟩ d hd
  rw [List.mem_singleton.1 hd]
  exact h c hc

theorem over_exactly (h : ∀ c ∈ s, P c) : Over P (exactly s) := by
  intro t ht c hc
  rw [mem_exactly.1 ht] at hc
  exact h c hc

theorem over_one : Over P (1 : Language α) := by
  intro s hs c hc
  rw [Language.mem_one] at hs
  subst hs
  cases hc

theorem Over.add (hl : Over P l) (hm : Over P m) : Over P (l + m) := by
  intro s hs
  rcases (Language.mem_add _ _ _).1 hs with h | h
  · exact hl s h
  · exact hm s h

theorem Over.mul (hl : Over P l) (hm : Over P m) : Over P (l * m) := by
  intro s hs c hc
  obtain ⟨a, ha, b, hb, rfl⟩ := Language.mem_mul.1 hs
  rcases List.mem_append.1 hc with h | h
  · exact hl a ha c h
  · exact hm b hb c h

theorem Over.kstar (hl : Over P l) : Over P l∗ := by
  intro s hs c hc
  obtain ⟨words, rfl, hwords⟩ := Language.mem_kstar.1 hs
  obtain ⟨w, hw, hcw⟩ := List.mem_flatten.1 hc
  exact hl w (hwords w hw) c hcw

theorem Over.pow (hl : Over P l) (n : ℕ) : Over P (l ^ n) := by
  induction n with
  | zero =>
    rw [pow_zero]
    exact over_one
  | succ n ih =>
    rw [pow_succ]
    exact ih.mul hl

theorem Over.atMost (hl : Over P l) (n : ℕ) : Over P (atMost n l) := by
  rintro s ⟨k, -, hs⟩
  exact hl.pow k s hs

end DecentRegistry.Grammar
