import Mathlib.Logic.Function.Basic
import Mathlib.Order.Lattice.Nat

/-!
# Registers with owners

Entries are published under keys. The first entry of a key makes its owner the owner of the key, and
from then on an entry is taken if it has that owner and a greater number. Whatever is published, the
owner of a key does not change and its number does not go down (`later_publishes`). So what is held
is the latest entry of the first owner (`latest_of_publishes`), and what is published next is taken
exactly if it is a later one of that owner (`admits_publishes_iff`). -/

namespace DecentRegistry.OwnedRegister

variable {κ ο β : Type}

/-- What is published: by whom, with which number, and the value. -/
structure Entry (ο β : Type) where
  owner : ο
  seq : ℕ
  value : β
  deriving DecidableEq

/-- The entry may take the place of the head. -/
def Admits (head : Option (Entry ο β)) (e : Entry ο β) : Prop :=
  ∀ h ∈ head, h.owner = e.owner ∧ h.seq < e.seq

instance [DecidableEq ο] (head : Option (Entry ο β)) (e : Entry ο β) : Decidable (Admits head e) :=
  decidable_of_iff (∀ h ∈ head.toList, h.owner = e.owner ∧ h.seq < e.seq) (by simp [Admits])

/-- The latest entry under a key of the owner whose entry is the first under that key. -/
structure Latest (es : List (κ × Entry ο β)) (k : κ) (h : Entry ο β) : Prop where
  published : (k, h) ∈ es
  firstOwner : ∃ before first after, es = before ++ (k, first) :: after ∧
    (∀ p ∈ before, p.1 ≠ k) ∧ first.owner = h.owner
  greatest : ∀ e, (k, e) ∈ es → e.owner = h.owner → e.seq ≤ h.seq

section Entries

variable {k : κ} {e h : Entry ο β} {es : List (κ × Entry ο β)}

@[simp] theorem admits_none : Admits none e := by simp [Admits]

@[simp] theorem admits_some : Admits (some h) e ↔ h.owner = e.owner ∧ h.seq < e.seq := by
  simp [Admits]

/-- Of the same owner, and with no smaller number. -/
structure Later (h h' : Entry ο β) : Prop where
  owner : h'.owner = h.owner
  seq : h.seq ≤ h'.seq

theorem Later.trans {h' h'' : Entry ο β} (a : Later h h') (b : Later h' h'') : Later h h'' :=
  ⟨b.owner.trans a.owner, a.seq.trans b.seq⟩

/-- A key under which something is published has a first entry. -/
theorem exists_first (he : (k, e) ∈ es) :
    ∃ before first after, es = before ++ (k, first) :: after ∧ ∀ p ∈ before, p.1 ≠ k := by
  induction es with
  | nil => cases he
  | cons p es ih =>
    obtain ⟨k', e'⟩ := p
    by_cases hk : k' = k
    · subst hk
      exact ⟨[], e', es, rfl, by simp⟩
    · obtain ⟨before, first, after, rfl, hbefore⟩ :=
        ih ((List.mem_cons.1 he).resolve_left fun heq => hk (Prod.mk.inj heq).1.symm)
      refine ⟨(k', e') :: before, first, after, rfl, fun q hq => ?_⟩
      rcases List.mem_cons.1 hq with rfl | hq
      · exact hk
      · exact hbefore q hq

/-- A key has one first entry. -/
theorem first_unique [DecidableEq κ] {before before' after after' : List (κ × Entry ο β)}
    {first first' : Entry ο β}
    (heq : before ++ (k, first) :: after = before' ++ (k, first') :: after')
    (hbefore : ∀ p ∈ before, p.1 ≠ k) (hbefore' : ∀ p ∈ before', p.1 ≠ k) : first = first' := by
  have hfind (l l' : List (κ × Entry ο β)) (e : Entry ο β) (hl : ∀ p ∈ l, p.1 ≠ k) :
      (l ++ (k, e) :: l').find? (fun p => p.1 = k) = some (k, e) := by
    rw [List.find?_append, List.find?_eq_none.2 fun p hp => by simpa using hl p hp]
    simp
  have hsome := hfind before after first hbefore
  rw [heq, hfind before' after' first' hbefore'] at hsome
  exact (Prod.mk.inj (Option.some.inj hsome)).2.symm

end Entries

variable [DecidableEq κ] [DecidableEq ο]

/-- The register after an entry is published. -/
def publish (r : κ → Option (Entry ο β)) (k : κ) (e : Entry ο β) : κ → Option (Entry ο β) :=
  if Admits (r k) e then Function.update r k (some e) else r

/-- The register after entries are published, one after another. -/
def publishes (r : κ → Option (Entry ο β)) (es : List (κ × Entry ο β)) : κ → Option (Entry ο β) :=
  es.foldl (fun r p => publish r p.1 p.2) r

variable {r : κ → Option (Entry ο β)} {k k' : κ} {e h : Entry ο β} {es : List (κ × Entry ο β)}

@[simp] theorem publishes_nil : publishes r [] = r := rfl

@[simp] theorem publishes_cons : publishes r ((k, e) :: es) = publishes (publish r k e) es := rfl

@[simp] theorem publishes_append (es' : List (κ × Entry ο β)) :
    publishes r (es ++ es') = publishes (publishes r es) es' := by
  simp [publishes]

theorem publish_of_ne (hk : k' ≠ k) : publish r k e k' = r k' := by
  unfold publish
  split
  · rw [Function.update_of_ne hk]
  · rfl

theorem publish_self : publish r k e k = if Admits (r k) e then some e else r k := by
  unfold publish
  split
  · rw [Function.update_self]
  · rfl

theorem later_publish (hr : r k = some h) (k' : κ) (e : Entry ο β) :
    ∃ h', publish r k' e k = some h' ∧ Later h h' := by
  by_cases hk : k = k'
  · subst hk
    rw [publish_self, hr]
    split
    · rename_i hadmits
      obtain ⟨howner, hseq⟩ := admits_some.1 hadmits
      exact ⟨e, rfl, howner.symm, hseq.le⟩
    · exact ⟨h, rfl, rfl, le_rfl⟩
  · exact ⟨h, (publish_of_ne hk).trans hr, rfl, le_rfl⟩

/-- **The owner stays**, and the number does not go down. -/
theorem later_publishes (hr : r k = some h) (es : List (κ × Entry ο β)) :
    ∃ h', publishes r es k = some h' ∧ Later h h' := by
  induction es generalizing r h with
  | nil => exact ⟨h, hr, rfl, le_rfl⟩
  | cons p es ih =>
    obtain ⟨h', hpublish, hlater⟩ := later_publish hr p.1 p.2
    obtain ⟨h'', hpublishes, hlater'⟩ := ih hpublish
    exact ⟨h'', hpublishes, hlater.trans hlater'⟩

/-- What is held was held before or is published. -/
theorem mem_of_publishes (h' : publishes r es k = some h) : r k = some h ∨ (k, h) ∈ es := by
  induction es generalizing r with
  | nil => exact .inl h'
  | cons p es ih =>
    obtain ⟨k', e⟩ := p
    rcases @ih (publish r k' e) h' with hheld | hmem
    · by_cases hk : k = k'
      · subst hk
        rw [publish_self] at hheld
        split at hheld
        · obtain rfl := Option.some.inj hheld
          exact .inr List.mem_cons_self
        · exact .inl hheld
      · exact .inl ((publish_of_ne hk).symm.trans hheld)
    · exact .inr (List.mem_cons_of_mem _ hmem)

/-- A published entry of the owner of its key is no later than what is held. -/
theorem le_of_mem (h' : publishes r es k = some h) (he : (k, e) ∈ es) (howner : e.owner = h.owner) :
    e.seq ≤ h.seq := by
  obtain ⟨before, after, rfl⟩ := List.append_of_mem he
  rw [publishes_append, publishes_cons] at h'
  obtain ⟨g, hg, hle⟩ : ∃ g, publish (publishes r before) k e k = some g ∧
      (e.owner = g.owner → e.seq ≤ g.seq) := by
    rw [publish_self]
    split
    · exact ⟨e, rfl, fun _ => le_rfl⟩
    · rename_i hadmits
      cases hheld : publishes r before k with
      | none => exact absurd (hheld ▸ admits_none) hadmits
      | some g =>
        rw [hheld, admits_some, not_and] at hadmits
        exact ⟨g, rfl, fun heq => not_lt.1 (hadmits heq.symm)⟩
  obtain ⟨g', hg', hlater⟩ := later_publishes hg after
  obtain rfl := Option.some.inj (h'.symm.trans hg')
  exact (hle (howner.trans hlater.owner)).trans hlater.seq

/-- Nothing is held under a key under which nothing is published. -/
theorem publishes_of_not_mem (hk : ∀ p ∈ es, p.1 ≠ k) : publishes (fun _ => none) es k = none := by
  by_contra hne
  obtain ⟨h, hh⟩ := Option.ne_none_iff_exists'.1 hne
  rcases mem_of_publishes hh with hh | hh
  · cases hh
  · exact hk _ hh rfl

/-- The first entry under a key is held, or a later one of its owner. -/
theorem later_first {before after : List (κ × Entry ο β)} {first : Entry ο β}
    (hbefore : ∀ p ∈ before, p.1 ≠ k) :
    ∃ h, publishes (fun _ => none) (before ++ (k, first) :: after) k = some h ∧ Later first h := by
  have hfirst : publish (publishes (fun _ => none) before) k first k = some first := by
    rw [publish_self, publishes_of_not_mem hbefore, if_pos admits_none]
  rw [publishes_append, publishes_cons]
  exact later_publishes hfirst after

/-- Something is held under a key under which something is published. -/
theorem publishes_eq_none_iff :
    publishes (fun _ => none) es k = none ↔ ∀ e, (k, e) ∉ es := by
  constructor
  · intro hnone e he
    obtain ⟨before, first, after, rfl, hbefore⟩ := exists_first he
    obtain ⟨h, hh, -⟩ := later_first hbefore
    cases hnone.symm.trans hh
  · rintro hnone
    refine publishes_of_not_mem fun p hp hk => hnone p.2 ?_
    rwa [← hk]

/-- **What is held** is the latest entry of the first owner. -/
theorem latest_of_publishes (hh : publishes (fun _ => none) es k = some h) : Latest es k h := by
  have hmem : (k, h) ∈ es := (mem_of_publishes hh).resolve_left (by simp)
  obtain ⟨before, first, after, rfl, hbefore⟩ := exists_first hmem
  obtain ⟨h', hh', hlater⟩ := later_first hbefore
  obtain rfl := Option.some.inj (hh.symm.trans hh')
  exact ⟨hmem, ⟨before, first, after, rfl, hbefore, hlater.owner.symm⟩, fun e he howner =>
    le_of_mem hh he howner⟩

/-- **What is taken next** under a key is a first entry, or a later one of the first owner. -/
theorem admits_publishes_iff :
    Admits (publishes (fun _ => none) es k) e ↔
      (∀ e', (k, e') ∉ es) ∨ ∃ h, Latest es k h ∧ h.owner = e.owner ∧ h.seq < e.seq := by
  cases hh : publishes (fun _ => none) es k with
  | none => exact iff_of_true admits_none (.inl (publishes_eq_none_iff.1 hh))
  | some h =>
    have hlatest := latest_of_publishes hh
    rw [admits_some]
    constructor
    · exact fun hadmits => .inr ⟨h, hlatest, hadmits⟩
    · rintro (hnone | ⟨h', hlatest', howner, hseq⟩)
      · exact (hnone h hlatest.published).elim
      · obtain ⟨before, first, after, heq, hbefore, hfirst⟩ := hlatest.firstOwner
        obtain ⟨before', first', after', heq', hbefore', hfirst'⟩ := hlatest'.firstOwner
        have hsame : h'.owner = h.owner := by
          rw [← hfirst, ← hfirst', first_unique (heq.symm.trans heq') hbefore hbefore']
        exact ⟨hsame.symm.trans howner,
          (hlatest'.greatest h hlatest.published hsame.symm).trans_lt hseq⟩

end DecentRegistry.OwnedRegister
