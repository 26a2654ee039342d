import Mathlib.Data.List.Nodup

/-!
# Insertion-ordered maps

A Python dictionary: entries with distinct keys, in the order in which the keys came. Setting a key
that is there keeps its place. What is looked up is what is listed (`get?_eq_some`), and the lemmas
about lookups and sizes after a change follow from it.
-/

namespace DecentRegistry

/-- Among entries with distinct keys, the one with a given key is found. -/
theorem find?_key_eq_some {α κ : Type} [DecidableEq κ] {key : α → κ} {l : List α}
    (h : (l.map key).Nodup) {k : κ} {a : α} :
    l.find? (fun x => key x = k) = some a ↔ a ∈ l ∧ key a = k := by
  constructor
  · intro hfind
    exact ⟨List.mem_of_find?_eq_some hfind, by simpa using List.find?_some hfind⟩
  · rintro ⟨hmem, hkey⟩
    cases hfind : l.find? (fun x => key x = k) with
    | none =>
      have hnone := List.find?_eq_none.1 hfind _ hmem
      simp [hkey] at hnone
    | some a' =>
      have hkey' : key a' = k := by simpa using List.find?_some hfind
      have hmem' := List.mem_of_find?_eq_some hfind
      rw [List.inj_on_of_nodup_map h hmem' hmem (hkey'.trans hkey.symm)]

/-- Entries with distinct keys, in order. -/
structure OrderedMap (K V : Type) where
  entries : List (K × V)
  nodup : (entries.map Prod.fst).Nodup

namespace OrderedMap

variable {K V : Type}

def empty : OrderedMap K V := ⟨[], List.nodup_nil⟩

/-- `len(m)`. -/
def size (m : OrderedMap K V) : ℕ := m.entries.length

/-- `tuple(m)`. -/
def keys (m : OrderedMap K V) : List K := m.entries.map Prod.fst

variable [DecidableEq K]

/-- `m.get(key)`. -/
def get? (m : OrderedMap K V) (key : K) : Option V :=
  (m.entries.find? (·.1 = key)).map Prod.snd

/-- Put a value in the place of the one that a key has. -/
def replaceEntry (key : K) (value : V) (e : K × V) : K × V :=
  if e.1 = key then (key, value) else e

theorem fst_replaceEntry (key : K) (value : V) (e : K × V) :
    (replaceEntry key value e).1 = e.1 := by
  rw [replaceEntry]
  split
  · rename_i h
    exact h.symm
  · rfl

theorem map_fst_replaceEntry (key : K) (value : V) (l : List (K × V)) :
    (l.map (replaceEntry key value)).map Prod.fst = l.map Prod.fst := by
  rw [List.map_map]
  exact List.map_congr_left fun e _ => fst_replaceEntry key value e

/-- `m[key] = value`. -/
def set (m : OrderedMap K V) (key : K) (value : V) : OrderedMap K V :=
  if h : key ∈ m.keys then
    ⟨m.entries.map (replaceEntry key value), by
      rw [map_fst_replaceEntry]
      exact m.nodup⟩
  else
    ⟨m.entries ++ [(key, value)], by
      rw [List.map_append, List.nodup_append]
      refine ⟨m.nodup, List.nodup_singleton _, ?_⟩
      rintro k hk _ hnew rfl
      have hkey : k = key := by simpa using hnew
      subst hkey
      exact h hk⟩

/-- `m.pop(key, None)`. -/
def erase (m : OrderedMap K V) (key : K) : OrderedMap K V :=
  ⟨m.entries.filter (·.1 ≠ key), (List.filter_sublist.map Prod.fst).nodup m.nodup⟩

variable {m : OrderedMap K V} {key key' : K} {value value' : V}

/-- What is looked up is what is listed. -/
theorem get?_eq_some : m.get? key = some value ↔ (key, value) ∈ m.entries := by
  rw [get?, Option.map_eq_some_iff]
  constructor
  · rintro ⟨e, he, rfl⟩
    obtain ⟨hmem, rfl⟩ := (find?_key_eq_some m.nodup).1 he
    exact hmem
  · intro hmem
    exact ⟨(key, value), (find?_key_eq_some m.nodup).2 ⟨hmem, rfl⟩, rfl⟩

theorem mem_keys : key ∈ m.keys ↔ ∃ value, m.get? key = some value := by
  simp only [keys, List.mem_map, get?_eq_some, Prod.exists]
  constructor
  · rintro ⟨_, value, hmem, rfl⟩
    exact ⟨value, hmem⟩
  · rintro ⟨value, hmem⟩
    exact ⟨key, value, hmem, rfl⟩

theorem get?_eq_none : m.get? key = none ↔ key ∉ m.keys := by
  rw [mem_keys, Option.eq_none_iff_forall_ne_some]
  push Not
  rfl

/-- Two maps with the same entries look up the same. -/
theorem get?_congr {m' : OrderedMap K V}
    (h : ∀ value, (key, value) ∈ m.entries ↔ (key', value) ∈ m'.entries) :
    m.get? key = m'.get? key' := by
  apply Option.ext
  intro value
  rw [get?_eq_some, get?_eq_some, h]

@[simp] theorem get?_set : (m.set key value).get? key' =
    if key' = key then some value else m.get? key' := by
  by_cases hkey : key' = key
  · subst hkey
    rw [if_pos rfl, get?_eq_some, set]
    split
    · rename_i hmem
      obtain ⟨old, hold⟩ := mem_keys.1 hmem
      refine List.mem_map.2 ⟨(key', old), get?_eq_some.1 hold, ?_⟩
      rw [replaceEntry, if_pos rfl]
    · simp
  · rw [if_neg hkey]
    apply get?_congr
    intro value'
    rw [set]
    split
    · simp only [List.mem_map, replaceEntry]
      constructor
      · rintro ⟨e, he, heq⟩
        split at heq
        · exact absurd (Prod.mk.inj heq).1.symm hkey
        · exact heq ▸ he
      · intro hmem
        exact ⟨_, hmem, if_neg hkey⟩
    · simp [hkey]

@[simp] theorem get?_erase : (m.erase key).get? key' =
    if key' = key then none else m.get? key' := by
  by_cases hkey : key' = key
  · subst hkey
    rw [if_pos rfl, get?_eq_none]
    simp [keys, erase]
  · rw [if_neg hkey]
    apply get?_congr
    intro value'
    simp [erase, hkey]

theorem size_set_of_mem (h : key ∈ m.keys) : (m.set key value).size = m.size := by
  rw [set, dif_pos h]
  exact List.length_map _

theorem size_set_of_not_mem (h : key ∉ m.keys) : (m.set key value).size = m.size + 1 := by
  rw [set, dif_neg h]
  exact List.length_append

theorem size_set_le : (m.set key value).size ≤ m.size + 1 := by
  by_cases h : key ∈ m.keys
  · rw [size_set_of_mem h]
    omega
  · exact Nat.le_of_eq (size_set_of_not_mem h)

theorem size_erase_le : (m.erase key).size ≤ m.size := List.length_filter_le _ _

theorem size_erase_lt (h : key ∈ m.keys) : (m.erase key).size < m.size := by
  obtain ⟨value, hvalue⟩ := mem_keys.1 h
  exact List.length_filter_lt_length_iff_exists.2 ⟨(key, value), get?_eq_some.1 hvalue, by simp⟩

end OrderedMap

end DecentRegistry
