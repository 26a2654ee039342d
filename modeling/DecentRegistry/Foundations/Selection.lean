import Mathlib.Data.List.Perm.Basic
import Mathlib.Data.List.Lex
import Mathlib.Order.Lattice

/-!
# Selection in one pass

Candidates carry a version and a content. `pass` goes through them once, keeps the best version so
far, and gives up when a candidate has that version and another content. Each candidate is compared
with the best so far only, so whether two candidates of one version are noticed can depend on where
a newer one stands. `pick_perm_iff` says when the order does not matter: when no two candidates
compete, or when two of the newest do.
-/

namespace DecentRegistry.Selection

variable {N H : Type}

/-- Two candidates have the version and different contents. -/
def Competes (l : List (N × H)) (n : N) : Prop :=
  ∃ x ∈ l, ∃ y ∈ l, x.1 = n ∧ y.1 = n ∧ x.2 ≠ y.2

theorem Competes.perm {l l' : List (N × H)} {n : N} (h : Competes l n) (hl : l.Perm l') :
    Competes l' n := by
  obtain ⟨x, hx, y, hy, competing⟩ := h
  exact ⟨x, hl.mem_iff.1 hx, y, hl.mem_iff.1 hy, competing⟩

variable [LinearOrder N]

/-- The candidate is a newest one, and none of its version differs from it. -/
structure IsHead (l : List (N × H)) (b : N × H) : Prop where
  mem : b ∈ l
  le : ∀ x ∈ l, x.1 ≤ b.1
  alone : ∀ x ∈ l, x.1 = b.1 → x.2 = b.2

theorem IsHead.perm {l l' : List (N × H)} {b : N × H} (h : IsHead l b) (hl : l.Perm l') :
    IsHead l' b :=
  ⟨hl.mem_iff.1 h.mem, fun x hx => h.le x (hl.mem_iff.2 hx),
    fun x hx => h.alone x (hl.mem_iff.2 hx)⟩

theorem IsHead.unique {l : List (N × H)} {b c : N × H} (hb : IsHead l b) (hc : IsHead l c) :
    b = c := by
  have hversion : b.1 = c.1 := le_antisymm (hc.le b hb.mem) (hb.le c hc.mem)
  exact Prod.ext hversion (hc.alone b hb.mem hversion)

/-- Nothing competes at the version of a head. -/
theorem IsHead.not_competes {l : List (N × H)} {b : N × H} (h : IsHead l b) :
    ¬ Competes l b.1 := by
  rintro ⟨x, hx, y, hy, hxb, hyb, hne⟩
  exact hne ((h.alone x hx hxb).trans (h.alone y hy hyb).symm)

theorem exists_newest {l : List (N × H)} (h : l ≠ []) : ∃ z ∈ l, ∀ x ∈ l, x.1 ≤ z.1 := by
  induction l with
  | nil => exact absurd rfl h
  | cons x l ih =>
    rcases eq_or_ne l [] with rfl | hl
    · exact ⟨x, by simp, by simp⟩
    · obtain ⟨z, hz, hmax⟩ := ih hl
      rcases le_total x.1 z.1 with hle | hle
      · refine ⟨z, by simp [hz], fun y hy => ?_⟩
        rcases List.mem_cons.1 hy with rfl | hy
        · exact hle
        · exact hmax y hy
      · refine ⟨x, by simp, fun y hy => ?_⟩
        rcases List.mem_cons.1 hy with rfl | hy
        · exact le_rfl
        · exact (hmax y hy).trans hle

/-! ## What the pass picks -/

variable [DecidableEq H]

/-- The best candidate, or `none` when one competes with the best so far. -/
def pass (best : N × H) : List (N × H) → Option (N × H)
  | [] => some best
  | x :: l =>
    if best.1 < x.1 then pass x l
    else if x.1 = best.1 ∧ x.2 ≠ best.2 then none
    else pass best l

/-- The pass over a list, from its first candidate. -/
def pick : List (N × H) → Option (N × H)
  | [] => none
  | x :: l => pass x l

/-- **The pass picks a head.** -/
theorem pass_isHead {best b : N × H} {l : List (N × H)} (h : pass best l = some b) :
    IsHead (best :: l) b := by
  induction l generalizing best with
  | nil =>
    obtain rfl := Option.some.inj h
    exact ⟨by simp, by simp, by simp⟩
  | cons x l ih =>
    rw [pass] at h
    split_ifs at h with newer competing
    · have head := ih h
      have hbest : best.1 < b.1 := newer.trans_le (head.le x (by simp))
      refine ⟨List.mem_cons_of_mem _ head.mem, ?_, ?_⟩
      · intro y hy
        rcases List.mem_cons.1 hy with rfl | hy
        · exact hbest.le
        · exact head.le y hy
      · intro y hy hyb
        rcases List.mem_cons.1 hy with rfl | hy
        · exact absurd hyb hbest.ne
        · exact head.alone y hy hyb
    · have head := ih h
      have hx : x.1 ≤ best.1 := not_lt.1 newer
      have hsub : b ∈ best :: x :: l := by
        rcases List.mem_cons.1 head.mem with rfl | hb
        · simp
        · simp [hb]
      have hle : best.1 ≤ b.1 := head.le best (by simp)
      refine ⟨hsub, ?_, ?_⟩
      · intro y hy
        rcases List.mem_cons.1 hy with rfl | hy
        · exact hle
        · rcases List.mem_cons.1 hy with rfl | hy
          · exact hx.trans hle
          · exact head.le y (List.mem_cons_of_mem _ hy)
      · intro y hy hyb
        rcases List.mem_cons.1 hy with rfl | hy
        · exact head.alone y (by simp) hyb
        · rcases List.mem_cons.1 hy with rfl | hy
          · -- `y` has the version of the best so far, so it agrees with it
            have hversion : y.1 = best.1 := le_antisymm hx (hle.trans hyb.ge)
            have hcontent : y.2 = best.2 := by
              by_contra hne
              exact competing ⟨hversion, hne⟩
            exact hcontent.trans (head.alone best (by simp) (hversion.symm.trans hyb))
          · exact head.alone y (List.mem_cons_of_mem _ hy) hyb

/-- Candidates that do not compete are all passed. -/
theorem pass_of_not_competes {best : N × H} {l : List (N × H)}
    (h : ∀ n, ¬ Competes (best :: l) n) : ∃ b, pass best l = some b := by
  induction l generalizing best with
  | nil => exact ⟨best, rfl⟩
  | cons x l ih =>
    have hsub (z : N × H) (hz : z ∈ best :: x :: l) (n : N) : ¬ Competes (z :: l) n := by
      rintro ⟨y, hy, y', hy', competing⟩
      have hmem (w : N × H) (hw : w ∈ z :: l) : w ∈ best :: x :: l := by
        rcases List.mem_cons.1 hw with rfl | hw
        · exact hz
        · simp [hw]
      exact h n ⟨y, hmem y hy, y', hmem y' hy', competing⟩
    rw [pass]
    split_ifs with newer competing
    · exact ih (hsub x (by simp))
    · exact absurd ⟨x, by simp, best, by simp, competing.1, rfl, competing.2⟩ (h best.1)
    · exact ih (hsub best (by simp))

/-- A head that comes first is picked. -/
theorem pass_of_isHead {b : N × H} {l : List (N × H)} (h : IsHead (b :: l) b) :
    pass b l = some b := by
  induction l with
  | nil => rfl
  | cons x l ih =>
    have hx : ¬ b.1 < x.1 := not_lt.2 (h.le x (by simp))
    have hagree : ¬ (x.1 = b.1 ∧ x.2 ≠ b.2) := fun hne => hne.2 (h.alone x (by simp) hne.1)
    rw [pass, if_neg hx, if_neg hagree]
    refine ih ⟨by simp, fun y hy => h.le y ?_, fun y hy => h.alone y ?_⟩
    · rcases List.mem_cons.1 hy with rfl | hy <;> simp_all
    · rcases List.mem_cons.1 hy with rfl | hy <;> simp_all

theorem pick_isHead {l : List (N × H)} {b : N × H} (h : pick l = some b) : IsHead l b := by
  cases l with
  | nil => cases h
  | cons x l => exact pass_isHead h

/-! ## Orders -/

/-- Some order of candidates two of which compete is refused. -/
theorem exists_perm_refused {l : List (N × H)} {n : N} (h : Competes l n) :
    ∃ l', l'.Perm l ∧ pick l' = none := by
  obtain ⟨x, hx, y, hy, rfl, hyx, hne⟩ := h
  have hy' : y ∈ l.erase x := by
    refine (List.mem_erase_of_ne ?_).2 hy
    rintro rfl
    exact hne rfl
  refine ⟨x :: y :: (l.erase x).erase y, ?_, ?_⟩
  · exact ((List.perm_cons_erase hy').symm.cons x).trans (List.perm_cons_erase hx).symm
  · rw [pick, pass, if_neg (by simp [hyx]), if_pos ⟨hyx, hne.symm⟩]

/-- Some order of candidates with a head is passed. -/
theorem exists_perm_passed {l : List (N × H)} {b : N × H} (h : IsHead l b) :
    ∃ l', l'.Perm l ∧ pick l' = some b := by
  have hperm : l.Perm (b :: l.erase b) := List.perm_cons_erase h.mem
  exact ⟨b :: l.erase b, hperm.symm, pass_of_isHead (h.perm hperm)⟩

/-- **When the order does not matter.** Every order of the candidates is passed or every one is
refused exactly when no two candidates compete, or two of the newest do. -/
theorem pick_perm_iff {l : List (N × H)} (hne : l ≠ []) :
    (∀ l', l'.Perm l → (pick l' = none ↔ pick l = none)) ↔
      (∀ n, ¬ Competes l n) ∨ ∃ n, Competes l n ∧ ∀ x ∈ l, x.1 ≤ n := by
  constructor
  · intro h
    by_contra hcondition
    obtain ⟨hsome, hnewest⟩ := not_or.1 hcondition
    obtain ⟨n, competing⟩ := not_forall_not.1 hsome
    -- nothing competes with a newest candidate, so it is a head
    obtain ⟨z, hz, hmax⟩ := exists_newest hne
    have head : IsHead l z := by
      refine ⟨hz, hmax, fun x hx hxz => ?_⟩
      by_contra hcontent
      exact hnewest ⟨z.1, ⟨x, hx, z, hz, hxz, rfl, hcontent⟩, hmax⟩
    obtain ⟨l₁, hl₁, refused⟩ := exists_perm_refused competing
    obtain ⟨l₂, hl₂, passed⟩ := exists_perm_passed head
    have hnone : pick l₂ = none := (h l₂ hl₂).2 ((h l₁ hl₁).1 refused)
    rw [passed] at hnone
    cases hnone
  · rintro (hnone | ⟨n, competing, hmax⟩) l' hl'
    · have hpassed (m : List (N × H)) (hm : m.Perm l) : ∃ b, pick m = some b := by
        cases m with
        | nil => exact absurd hm.symm.eq_nil hne
        | cons x m => exact pass_of_not_competes fun n hn => hnone n (hn.perm hm)
      obtain ⟨b, hb⟩ := hpassed l' hl'
      obtain ⟨c, hc⟩ := hpassed l (.refl l)
      simp [hb, hc]
    · have hrefused (m : List (N × H)) (hm : m.Perm l) : pick m = none := by
        rw [Option.eq_none_iff_forall_ne_some]
        intro b hb
        have head := (pick_isHead hb).perm hm
        obtain ⟨x, hx, y, hy, hxn, hyn, hcontent⟩ := competing
        have hversion : n = b.1 := le_antisymm (hxn ▸ head.le x hx) (hmax b head.mem)
        exact head.not_competes (hversion ▸ ⟨x, hx, y, hy, hxn, hyn, hcontent⟩)
      simp [hrefused l' hl', hrefused l (.refl l)]

end DecentRegistry.Selection
