import Mathlib.Data.List.Chain

/-!
# Hash chains

In a hash chain every entry but the first names its predecessor by a digest, and the first names
none. Such a chain is determined by its last entry, as far as the digest is injective on the entries
that occur (`IsHashChain.eq_of_getLast?`): which entry comes before another, and whether there is
one at all, is read off the entry itself. -/

namespace DecentRegistry.HashChain

variable {α H : Type} {digest : α → H} {predecessor : α → Option H}

/-- Every entry names the digest of the one before it, and the first names nothing. -/
inductive IsHashChain (digest : α → H) (predecessor : α → Option H) : List α → Prop
  | nil : IsHashChain digest predecessor []
  | snoc {l : List α} {a : α} (chain : IsHashChain digest predecessor l)
      (names : predecessor a = l.getLast?.map digest) : IsHashChain digest predecessor (l ++ [a])

/-- Two digests agree only if what they are digests of does. -/
theorem eq_of_map_digest {x y : Option α} (h : x.map digest = y.map digest)
    (injective : ∀ a ∈ x, ∀ b ∈ y, digest a = digest b → a = b) : x = y := by
  cases x with
  | none => simpa [eq_comm] using h
  | some a =>
    cases y with
    | none => simp at h
    | some b =>
      have hab : digest a = digest b := by simpa using h
      rw [injective a rfl b rfl hab]

/-- **A hash chain is determined by its last entry.** -/
theorem IsHashChain.eq_of_getLast? {l l' : List α} (h : IsHashChain digest predecessor l)
    (h' : IsHashChain digest predecessor l') (last : l.getLast? = l'.getLast?)
    (injective : ∀ a ∈ l, ∀ b ∈ l', digest a = digest b → a = b) : l = l' := by
  induction h generalizing l' with
  | nil => exact (List.getLast?_eq_none_iff.1 last.symm).symm
  | @snoc l a chain names ih =>
    cases h' with
    | nil => simp at last
    | @snoc l' b chain' names' =>
      obtain rfl : a = b := by simpa using last
      -- both chains read what comes before off the same entry
      have hdigest : l.getLast?.map digest = l'.getLast?.map digest := names.symm.trans names'
      have hlast : l.getLast? = l'.getLast? := by
        refine eq_of_map_digest hdigest fun x hx y hy => ?_
        exact injective x (List.mem_append_left _ (List.mem_of_getLast? hx)) y
          (List.mem_append_left _ (List.mem_of_getLast? hy))
      have hl : l = l' := by
        refine ih chain' hlast fun x hx y hy => ?_
        exact injective x (List.mem_append_left _ hx) y (List.mem_append_left _ hy)
      rw [hl]

end DecentRegistry.HashChain
