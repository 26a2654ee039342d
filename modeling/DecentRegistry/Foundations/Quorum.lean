import Mathlib.Data.List.Nodup
import Mathlib.Data.List.Perm.Subperm

/-!
# Quorums

A quorum of `n` among a list of members is `n` pairwise-distinct members that approve. Programs
collect approvals under names and look each name up, so that `n` distinct names are a quorum only
where the lookup is injective: `quorum_of_names`.
-/

namespace DecentRegistry.Quorum

variable {N K : Type}

/-- At least `n` pairwise-distinct members approve. -/
def IsQuorum (members : List K) (approves : K → Prop) (n : ℕ) : Prop :=
  ∃ ks : List K, ks.Nodup ∧ n ≤ ks.length ∧ ∀ k ∈ ks, k ∈ members ∧ approves k

theorem IsQuorum.mono_size {members : List K} {approves : K → Prop} {m n : ℕ}
    (h : IsQuorum members approves n) (hmn : m ≤ n) : IsQuorum members approves m := by
  obtain ⟨ks, nodup, size, approved⟩ := h
  exact ⟨ks, nodup, Nat.le_trans hmn size, approved⟩

theorem IsQuorum.mono {members : List K} {p q : K → Prop} {n : ℕ} (h : IsQuorum members p n)
    (hpq : ∀ k, p k → q k) : IsQuorum members q n := by
  obtain ⟨ks, nodup, size, approved⟩ := h
  exact ⟨ks, nodup, size, fun k hk => (approved k hk).imp_right (hpq k)⟩

/-- Two quorums whose sizes add up to more than the members have a member in common. -/
theorem IsQuorum.common {members : List K} {p q : K → Prop} {m n : ℕ}
    (hp : IsQuorum members p m) (hq : IsQuorum members q n) (h : members.length < m + n) :
    ∃ k ∈ members, p k ∧ q k := by
  obtain ⟨ks, nodup, size, approved⟩ := hp
  obtain ⟨ks', nodup', size', approved'⟩ := hq
  by_contra hnone
  have disjoint : ks.Disjoint ks' := fun k hk hk' =>
    hnone ⟨k, (approved k hk).1, (approved k hk).2, (approved' k hk').2⟩
  have subset : ks ++ ks' ⊆ members := fun k hk =>
    (List.mem_append.1 hk).elim (fun hk => (approved k hk).1) fun hk => (approved' k hk).1
  have hlength := ((nodup.append nodup' disjoint).subperm subset).length_le
  rw [List.length_append] at hlength
  omega

theorem length_filterMap_of_isSome {lookup : N → Option K} {names : List N}
    (h : ∀ a ∈ names, (lookup a).isSome) : (names.filterMap lookup).length = names.length := by
  rw [List.length_filterMap_eq_countP, List.countP_eq_length]
  exact h

/-- Distinct names that an injective lookup sends to approving members are a quorum. -/
theorem quorum_of_names {members : List K} {approves : K → Prop} {lookup : N → Option K}
    {names : List N} (nodup : names.Nodup)
    (inj : ∀ a b k, lookup a = some k → lookup b = some k → a = b)
    (approved : ∀ a ∈ names, ∃ k, lookup a = some k ∧ k ∈ members ∧ approves k) :
    IsQuorum members approves names.length := by
  refine ⟨names.filterMap lookup, ?_, ?_, ?_⟩
  · exact nodup.filterMap fun a b k ha hb => inj a b k ha hb
  · refine Nat.le_of_eq (Eq.symm (length_filterMap_of_isSome fun a ha => ?_))
    obtain ⟨k, hk, -⟩ := approved a ha
    simp [hk]
  · intro k hk
    obtain ⟨a, ha, hak⟩ := List.mem_filterMap.1 hk
    obtain ⟨k', hk', member, approves⟩ := approved a ha
    obtain rfl : k' = k := Option.some.inj (hk'.symm.trans hak)
    exact ⟨member, approves⟩

end DecentRegistry.Quorum
