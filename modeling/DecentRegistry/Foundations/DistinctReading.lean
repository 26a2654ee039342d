import DecentRegistry.Foundations.Fallible
import DecentRegistry.Foundations.PyValue
import Mathlib.Data.List.Pairwise
import Mathlib.Data.List.Perm.Basic

/-!
# Reading entries that must differ

A loop that reads the entries of a list one by one and refuses an entry that is not apart from those
before it accepts the lists whose entries can all be read and are pairwise apart (`collect_eq_ok`).
This does not depend on the order of the list, and neither does the list that is read once it is
sorted by a key in which the entries differ (`sortedBy_congr`).
-/

namespace DecentRegistry.DistinctReading

open PyValue

section Collect

variable {ε α β : Type} {reads : β → α → Prop} {apart : α → α → Prop}
  {loop : List β → List α → Except ε (List α)}

/-- What such a loop accepts, from the rule of one round. -/
theorem collect_eq_ok (nil : ∀ acc, loop [] acc = .ok acc)
    (cons : ∀ v vs acc out, loop (v :: vs) acc = .ok out ↔
      ∃ a, reads v a ∧ (∀ x ∈ acc, apart x a) ∧ loop vs (acc ++ [a]) = .ok out)
    {vs : List β} {acc out : List α} (hacc : acc.Pairwise apart) :
    loop vs acc = .ok out ↔
      ∃ l, out = acc ++ l ∧ List.Forall₂ reads vs l ∧ (acc ++ l).Pairwise apart := by
  induction vs generalizing acc with
  | nil =>
    rw [nil, Except.ok.injEq]
    constructor
    · rintro rfl
      exact ⟨[], by simp, .nil, by simpa using hacc⟩
    · rintro ⟨l, rfl, hl, -⟩
      rw [List.forall₂_nil_left_iff.1 hl, List.append_nil]
  | cons v vs ih =>
    have hsnoc {a : α} (ha : ∀ x ∈ acc, apart x a) : (acc ++ [a]).Pairwise apart := by
      simpa [List.pairwise_append, hacc] using ha
    rw [cons]
    constructor
    · rintro ⟨a, hv, ha, hrest⟩
      obtain ⟨l, rfl, hl, hpairwise⟩ := (ih (hsnoc ha)).1 hrest
      exact ⟨a :: l, by simp, .cons hv hl, by simpa using hpairwise⟩
    · rintro ⟨_, rfl, hread, hpairwise⟩
      obtain ⟨a, l, hv, hl, rfl⟩ := List.forall₂_cons_left_iff.1 hread
      have ha : ∀ x ∈ acc, apart x a := fun x hx =>
        (List.pairwise_append.1 hpairwise).2.2 x hx a (by simp)
      exact ⟨a, hv, ha, (ih (hsnoc ha)).2 ⟨l, by simp, hl, by simpa using hpairwise⟩⟩

theorem exists_read {vs : List β} {l : List α} (h : List.Forall₂ reads vs l) {a : α}
    (ha : a ∈ l) : ∃ v ∈ vs, reads v a := by
  induction h with
  | nil => cases ha
  | @cons v b vs l hv _ ih =>
    rcases List.mem_cons.1 ha with rfl | ha
    · exact ⟨v, by simp, hv⟩
    · obtain ⟨w, hw, hread⟩ := ih ha
      exact ⟨w, by simp [hw], hread⟩

/-- The entries in another order are read in that order. -/
theorem collect_perm {vs vs' : List β} {l : List α} (symmetric : ∀ a b, apart a b → apart b a)
    (hvs : vs'.Perm vs) (hl : List.Forall₂ reads vs l) (hpairwise : l.Pairwise apart) :
    ∃ l', l'.Perm l ∧ List.Forall₂ reads vs' l' ∧ l'.Pairwise apart := by
  obtain ⟨l', hl', hperm⟩ := List.perm_comp_forall₂ hvs hl
  exact ⟨l', hperm, hl', hperm.symm.pairwise hpairwise fun {a b} => symmetric a b⟩

end Collect

/-! ## Sorting -/

/-- Entries that differ in the key have one sorted order. -/
theorem sortedBy_congr {α : Type} {key : α → Bytes} {l l' : List α} (h : l.Perm l')
    (distinct : l.Pairwise fun a b => key a ≠ key b) : sortedBy key l = sortedBy key l' := by
  have hperm : (sortedBy key l).Perm (sortedBy key l') :=
    (sortedBy_perm key l).trans (h.trans (sortedBy_perm key l').symm)
  refine @List.Perm.eq_of_pairwise _ (fun a b => key a ≤ key b) _ _ ?_ (pairwise_sortedBy key l)
    (pairwise_sortedBy key l') hperm
  intro a b ha hb hle hge
  have ha' : a ∈ l := (sortedBy_perm key l).mem_iff.1 ha
  have hb' : b ∈ l := (sortedBy_perm key l).mem_iff.1 (hperm.mem_iff.2 hb)
  have symmetric : Std.Symm fun a b : α => key a ≠ key b := ⟨fun _ _ h => h.symm⟩
  by_contra hne
  exact distinct.forall ha' hb' hne (List.le_antisymm hle hge)

/-- Sorting what is sorted changes nothing. -/
theorem sortedBy_sortedBy {α : Type} (key : α → Bytes) (l : List α) :
    sortedBy key (sortedBy key l) = sortedBy key l :=
  List.Pairwise.insertionSort_eq (pairwise_sortedBy key l)

/-- A reader that sorts, or else demands that what it read is sorted. -/
theorem sorts_or_demands {α : Type} {key : α → Bytes} [DecidableEq α] {sorts : Bool}
    {read out : List α} :
    (¬ ((!sorts) = true ∧ read ≠ sortedBy key read) ∧
        (if sorts = true then sortedBy key read else read) = out) ↔
      out = sortedBy key read ∧ (sorts = false → out = read) := by
  cases sorts with
  | true => simp [eq_comm]
  | false =>
    constructor
    · rintro ⟨hsorted, rfl⟩
      exact ⟨by simpa using hsorted, fun _ => rfl⟩
    · rintro ⟨hout, hread⟩
      exact ⟨by simpa using (hread rfl).symm.trans hout, (hread rfl).symm⟩

/-! ## Text -/

theorem utf8_injective : Function.Injective utf8 := by
  intro s t h
  have hbytes : List.utf8Encode s = List.utf8Encode t := congrArg List.toByteArray h
  have hstring : String.ofList s = String.ofList t := String.toByteArray_inj.1 hbytes
  simpa using congrArg String.toList hstring

theorem utf8_ne_nil {t : Text} (h : t ≠ []) : utf8 t ≠ [] := by
  intro hnil
  exact h (utf8_injective (hnil.trans rfl))

end DecentRegistry.DistinctReading
