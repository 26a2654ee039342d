import DecentRegistry.Foundations.Quorum
import Mathlib.Data.List.Chain

/-!
# Forks of certified chains

The entries of a chain stand for states, each of which installs an authority, and an entry carries
the signatures of a quorum of the authority before it (`Certifies`). Where any two quorums of an
authority have a member in common, two chains that begin at one state part ways only where a member
of the authority signed an entry of either chain, and the two stand for different successors of one
state (`comparable_or_equivocates`). -/

namespace DecentRegistry.Forks

open Quorum

variable {E S K : Type}

/-- Who decides on what follows a state: any `threshold` of the members. -/
structure Authority (K : Type) where
  members : List K
  threshold : ℕ

/-- Any two quorums have a member in common. -/
def Authority.Intersecting (a : Authority K) : Prop := a.members.length < 2 * a.threshold

/-- Which state an entry stands for, which authority a state installs, whose signatures an entry
carries, and which states follow which. -/
structure Certification (E S K : Type) where
  state : E → S
  authority : S → Authority K
  carries : E → K → Prop
  follows : S → S → Prop

namespace Certification

variable {C : Certification E S K}

/-- The second entry follows the first and carries the signatures of a quorum of its authority. -/
def Certifies (C : Certification E S K) (x y : E) : Prop :=
  C.follows (C.state x) (C.state y) ∧
    IsQuorum (C.authority (C.state x)).members (C.carries y) (C.authority (C.state x)).threshold

/-- Evidence against a member of the authority over a state: an entry of either list carries its
signature, and the two stand for different successors of the state. -/
structure Equivocates (C : Certification E S K) (l m : List E) (u : S) (k : K) : Prop where
  member : k ∈ (C.authority u).members
  signed : ∃ y ∈ l, ∃ z ∈ m, C.state y ≠ C.state z ∧ C.follows u (C.state y) ∧
    C.follows u (C.state z) ∧ C.carries y k ∧ C.carries z k

/-- Evidence in some entries is evidence in more. -/
theorem Equivocates.mono {l m l' m' : List E} {u : S} {k : K} (h : C.Equivocates l m u k)
    (hl : l ⊆ l') (hm : m ⊆ m') : C.Equivocates l' m' u k := by
  obtain ⟨member, y, hy, z, hz, hsigned⟩ := h
  exact ⟨member, y, hl hy, z, hm hz, hsigned⟩

/-- Two certified successors of a state have a signer in common. -/
theorem Certifies.equivocates {x x' y z : E} (hy : C.Certifies x y) (hz : C.Certifies x' z)
    (same : C.state x = C.state x') (hne : C.state y ≠ C.state z)
    (h : (C.authority (C.state x)).Intersecting) :
    ∃ k, C.Equivocates [y] [z] (C.state x) k := by
  obtain ⟨follows, quorum⟩ := hy
  obtain ⟨follows', quorum'⟩ := hz
  rw [← same] at follows' quorum'
  obtain ⟨k, member, carries, carries'⟩ :=
    quorum.common quorum' (by rw [← Nat.two_mul]; exact h)
  exact ⟨k, member, y, List.mem_singleton_self y, z, List.mem_singleton_self z, hne, follows,
    follows', carries, carries'⟩

/-- **Accountability for forks.** One of two certified chains from one state stands for a beginning
of the other, or the two have evidence against someone who signed two successors of a state in
both. -/
theorem comparable_or_equivocates {x x' : E} {l m : List E} (hl : List.IsChain C.Certifies (x :: l))
    (hm : List.IsChain C.Certifies (x' :: m)) (same : C.state x = C.state x')
    (h : ∀ y ∈ x :: l, (C.authority (C.state y)).Intersecting) :
    (x :: l).map C.state <+: (x' :: m).map C.state ∨
      (x' :: m).map C.state <+: (x :: l).map C.state ∨
      ∃ u ∈ (x :: l).map C.state, u ∈ (x' :: m).map C.state ∧
        ∃ k, C.Equivocates (x :: l) (x' :: m) u k := by
  induction l generalizing x x' m with
  | nil => exact .inl ⟨m.map C.state, by simp [same]⟩
  | cons y l ih =>
    cases m with
    | nil => exact .inr (.inl ⟨(y :: l).map C.state, by simp [same]⟩)
    | cons z m =>
      obtain ⟨hy, hl⟩ := List.isChain_cons_cons.1 hl
      obtain ⟨hz, hm⟩ := List.isChain_cons_cons.1 hm
      by_cases hyz : C.state y = C.state z
      · rw [List.map_cons (l := y :: l), List.map_cons (l := z :: m), ← same]
        rcases ih hl hm hyz fun w hw => h w (List.mem_cons_of_mem _ hw) with
          hbegins | hbegins | ⟨u, hu, hu', k, hk⟩
        · exact .inl (List.cons_prefix_cons.2 ⟨rfl, hbegins⟩)
        · exact .inr (.inl (List.cons_prefix_cons.2 ⟨rfl, hbegins⟩))
        · exact .inr (.inr ⟨u, List.mem_cons_of_mem _ hu, List.mem_cons_of_mem _ hu', k,
            hk.mono (List.subset_cons_self _ _) (List.subset_cons_self _ _)⟩)
      · obtain ⟨k, hk⟩ := hy.equivocates hz same hyz (h x List.mem_cons_self)
        refine .inr (.inr ⟨C.state x, by simp, by simp [same], k, hk.mono ?_ ?_⟩)
        · simp
        · simp

end Certification

/-! ## Comparable lists -/

/-- Of two comparable lists, one that goes up, and not from the end of the other to its own, is the
beginning. -/
theorem prefix_of_not_lt {α : Type} {lt : α → α → Prop} {l m : List α} {x y : α}
    (h : l <+: m ∨ m <+: l) (hl : l.Pairwise lt) (hx : l.getLast? = some x)
    (hy : m.getLast? = some y) (hlt : ¬ lt y x) : l <+: m := by
  rcases h with h | ⟨t, rfl⟩
  · exact h
  · cases t with
    | nil => simp
    | cons a t =>
      have hmem : x ∈ a :: t := by
        rw [List.getLast?_append_cons] at hx
        exact List.mem_of_getLast? hx
      exact absurd ((List.pairwise_append.1 hl).2.2 y (List.mem_of_getLast? hy) x hmem) hlt

end DecentRegistry.Forks
