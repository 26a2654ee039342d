import DecentRegistry.Foundations.DistinctReading

/-!
# Insertion into sorted entries

Entries that are sorted by a key, and that are kept sorted while entries with new keys are appended
one by one: each is inserted at its place (`sortedBy_snoc`), so the order in which they come is of
no consequence (`insertAll_perm`). -/

namespace DecentRegistry.PyValue

variable {α : Type} {key : α → Bytes}

/-- The entry inserted before the first one whose key is not smaller. -/
def insertBy (key : α → Bytes) (l : List α) (a : α) : List α :=
  l.orderedInsert (fun a b => key a ≤ key b) a

/-- The entries inserted one by one. -/
def insertAll (key : α → Bytes) (l as : List α) : List α := as.foldl (insertBy key) l

theorem insertBy_cons (b : α) (l : List α) (a : α) :
    insertBy key (b :: l) a = if key a ≤ key b then a :: b :: l else b :: insertBy key l a :=
  List.orderedInsert_cons _ _ _ _

theorem insertBy_perm (l : List α) (a : α) : (insertBy key l a).Perm (a :: l) :=
  List.perm_orderedInsert _ _ _

@[simp] theorem insertAll_nil (l : List α) : insertAll key l [] = l := rfl

@[simp] theorem insertAll_cons (l : List α) (a : α) (as : List α) :
    insertAll key l (a :: as) = insertAll key (insertBy key l a) as := rfl

/-- Entries with different keys are inserted in either order. -/
theorem insertBy_comm {a b : α} (hne : key a ≠ key b) (l : List α) :
    insertBy key (insertBy key l a) b = insertBy key (insertBy key l b) a := by
  have hnot : key a ≤ key b → ¬ key b ≤ key a := fun h h' => hne (List.le_antisymm h h')
  have htotal : key a ≤ key b ∨ key b ≤ key a := List.le_total _ _
  induction l with
  | nil =>
    rcases htotal with h | h
    · simp [insertBy, h, hnot h]
    · have h' : ¬ key a ≤ key b := fun h' => hnot h' h
      simp [insertBy, h, h']
  | cons c l ih =>
    simp only [insertBy_cons]
    by_cases ha : key a ≤ key c <;> by_cases hb : key b ≤ key c
    · simp only [ha, hb, if_true, insertBy_cons]
      rcases htotal with h | h
      · simp only [h, hnot h, if_true, if_false]
      · have h' : ¬ key a ≤ key b := fun h' => hnot h' h
        simp only [h, h', if_true, if_false]
    · have hba : ¬ key b ≤ key a := fun h => hb (List.le_trans h ha)
      simp only [ha, hb, hba, if_true, if_false, insertBy_cons]
    · have hab : ¬ key a ≤ key b := fun h => ha (List.le_trans h hb)
      simp only [ha, hb, hab, if_true, if_false, insertBy_cons]
    · simp only [ha, hb, if_false, insertBy_cons, ih]

/-- **The order of insertion.** Entries with distinct keys are inserted in any order. -/
theorem insertAll_perm {as bs : List α} (h : as.Perm bs) (distinct : (as.map key).Nodup)
    (l : List α) : insertAll key l as = insertAll key l bs := by
  refine h.foldl_eq' (fun a ha b hb l => ?_) l
  by_cases hab : a = b
  · rw [hab]
  · have hne : key a ≠ key b := fun heq => hab (List.inj_on_of_nodup_map distinct ha hb heq)
    exact insertBy_comm hne l

theorem insertAll_perm_append (l as : List α) : (insertAll key l as).Perm (as ++ l) := by
  induction as generalizing l with
  | nil => exact List.Perm.refl _
  | cons a as ih =>
    have hinsert :
        (as ++ insertBy key l a).Perm (as ++ a :: l) := (insertBy_perm l a).append_left as
    exact (ih _).trans (hinsert.trans List.perm_middle)

/-- An entry with a new key that is appended to sorted entries is inserted when they are sorted. -/
theorem sortedBy_snoc {a : α} {l : List α} (hsorted : sortedBy key l = l)
    (hne : ∀ b ∈ l, key b ≠ key a) : sortedBy key (l ++ [a]) = insertBy key l a := by
  have hpairwise := pairwise_sortedBy key l
  rw [hsorted] at hpairwise
  clear hsorted
  induction l with
  | nil => rfl
  | cons b l ih =>
    rw [List.pairwise_cons] at hpairwise
    obtain ⟨hle, hrest⟩ := hpairwise
    have htail := ih (fun c hc => hne c (List.mem_cons_of_mem _ hc)) hrest
    have hcons : sortedBy key (b :: l ++ [a]) = insertBy key (insertBy key l a) b := by
      rw [← htail]
      rfl
    have hfirst : insertBy key l b = b :: l := by
      cases l with
      | nil => rfl
      | cons c l => rw [insertBy_cons, if_pos (hle c (by simp))]
    rw [hcons, insertBy_comm (hne b (by simp)).symm, hfirst]

end DecentRegistry.PyValue
