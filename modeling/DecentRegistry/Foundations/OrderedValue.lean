import DecentRegistry.Foundations.PyValue

/-!
# The order of dictionary entries

A canonical encoding writes the entries of a dictionary in the order of their keys, whatever order
they were inserted in. `Value.ordered` is a value with its dictionaries so ordered. On `Wire`
values, which have distinct natural numbers for keys, it depends on what the dictionaries contain
only (`ordered_dict_congr`). `perm_of_keysAre` is the bridge from what a program checks of a
dictionary, the set of its keys, to its entries. -/

namespace DecentRegistry.PyValue

/-! ## Ordering -/

/-- The number that an entry's key equals. -/
def keyNumber (e : Atom × Value) : Int := e.1.int?.getD 0

/-- The entries in the order of their keys. -/
def sortByKey (d : Dict) : Dict := d.insertionSort fun e e' => keyNumber e ≤ keyNumber e'

mutual

/-- The value with the entries of its dictionaries in the order of their keys. -/
def Value.ordered : Value → Value
  | .atom a => .atom a
  | .list xs => .list (orderedList xs)
  | .dict d => .dict (sortByKey (orderedEntries d))

def orderedList : List Value → List Value
  | [] => []
  | v :: xs => v.ordered :: orderedList xs

def orderedEntries : Dict → Dict
  | [] => []
  | (a, v) :: d => (a, v.ordered) :: orderedEntries d

end

theorem orderedList_eq_map (xs : List Value) : orderedList xs = xs.map Value.ordered := by
  induction xs with
  | nil => rfl
  | cons v xs ih => rw [orderedList, ih, List.map_cons]

theorem orderedEntries_eq_map (d : Dict) :
    orderedEntries d = d.map fun e => (e.1, e.2.ordered) := by
  induction d with
  | nil => rfl
  | cons e d ih =>
    obtain ⟨a, v⟩ := e
    rw [orderedEntries, ih, List.map_cons]

@[simp] theorem Value.ordered_atom (a : Atom) : (Value.atom a).ordered = .atom a := by
  rw [Value.ordered]

@[simp] theorem Value.ordered_list (xs : List Value) :
    (Value.list xs).ordered = .list (xs.map Value.ordered) := by
  rw [Value.ordered, orderedList_eq_map]

@[simp] theorem Value.ordered_dict (d : Dict) :
    (Value.dict d).ordered = .dict (sortByKey (d.map fun e => (e.1, e.2.ordered))) := by
  rw [Value.ordered, orderedEntries_eq_map]

theorem sortByKey_perm (d : Dict) : (sortByKey d).Perm d := List.perm_insertionSort _ d

theorem mem_sortByKey {d : Dict} {e : Atom × Value} : e ∈ sortByKey d ↔ e ∈ d :=
  (sortByKey_perm d).mem_iff

/-! ## Dictionaries under natural numbers -/

/-- The entries under the given numbers. -/
def natEntries (ns : List (ℕ × Value)) : Dict := ns.map fun e => (.int e.1, e.2)

/-- The keys are distinct natural numbers. -/
structure NatKeyed (d : Dict) : Prop where
  key : ∀ e ∈ d, ∃ n : ℕ, e.1 = .int n
  distinct : (d.map (·.1)).Nodup

theorem natKeyed_natEntries {ns : List (ℕ × Value)} (distinct : (ns.map (·.1)).Nodup) :
    NatKeyed (natEntries ns) := by
  constructor
  · intro e he
    obtain ⟨x, -, rfl⟩ := List.mem_map.1 he
    exact ⟨x.1, rfl⟩
  · have hkeys : (natEntries ns).map (·.1) = (ns.map (·.1)).map fun n : ℕ => Atom.int n := by
      simp [natEntries, List.map_map, Function.comp_def]
    rw [hkeys]
    exact distinct.map fun m n h => by simpa using h

namespace NatKeyed

variable {d d' : Dict}

/-- Entries with the same number are the same. -/
theorem inj (h : NatKeyed d) {e e' : Atom × Value} (he : e ∈ d) (he' : e' ∈ d)
    (hkey : keyNumber e = keyNumber e') : e = e' := by
  obtain ⟨n, hn⟩ := h.key e he
  obtain ⟨n', hn'⟩ := h.key e' he'
  have hnumber : n = n' := by simpa [keyNumber, hn, hn', Atom.int?] using hkey
  refine List.inj_on_of_nodup_map h.distinct he he' ?_
  rw [hn, hn', hnumber]

theorem perm (h : NatKeyed d) (hd : d.Perm d') : NatKeyed d' :=
  ⟨fun e he => h.key e (hd.mem_iff.2 he), (hd.map _).nodup_iff.1 h.distinct⟩

/-- Values may be changed. -/
theorem map (h : NatKeyed d) (f : Value → Value) : NatKeyed (d.map fun e => (e.1, f e.2)) := by
  constructor
  · intro e he
    obtain ⟨x, hx, rfl⟩ := List.mem_map.1 he
    exact h.key x hx
  · simpa [List.map_map, Function.comp_def] using h.distinct

/-- There is one order of the entries only. -/
theorem sortByKey_congr (h : NatKeyed d) (hd : d.Perm d') : sortByKey d = sortByKey d' := by
  have hperm : (sortByKey d).Perm (sortByKey d') :=
    (sortByKey_perm d).trans (hd.trans (sortByKey_perm d').symm)
  refine @List.Perm.eq_of_pairwise _ (fun e e' => keyNumber e ≤ keyNumber e') _ _ ?_
    (List.pairwise_insertionSort _ _) (List.pairwise_insertionSort _ _) hperm
  intro e e' he he' hle hge
  have hmem : e ∈ d := mem_sortByKey.1 he
  have hmem' : e' ∈ d := mem_sortByKey.1 (hperm.mem_iff.2 he')
  exact h.inj hmem hmem' (le_antisymm hle hge)

theorem get?_eq_some (h : NatKeyed d) {n : Int} {v : Value} :
    Dict.get? d n = some v ↔ (.int n, v) ∈ d := by
  constructor
  · intro hget
    obtain ⟨a, hmem, ha⟩ := Dict.mem_of_get? hget
    obtain ⟨k, rfl⟩ : ∃ k : ℕ, a = .int k := h.key _ hmem
    obtain rfl : (k : Int) = n := by simpa using ha
    exact hmem
  · intro hmem
    have hhas : Dict.has d n = true := List.any_eq_true.2 ⟨_, hmem, by simp⟩
    obtain ⟨w, hw⟩ := Dict.has_iff.1 hhas
    obtain ⟨a, hmem', ha⟩ := Dict.mem_of_get? hw
    obtain ⟨k, rfl⟩ : ∃ k : ℕ, a = .int k := h.key _ hmem'
    obtain rfl : (k : Int) = n := by simpa using ha
    have heq := h.inj hmem hmem' rfl
    rw [hw, (Prod.mk.inj heq).2]

/-- Looking up does not depend on the order of the entries. -/
theorem get?_perm (h : NatKeyed d) (hd : d.Perm d') (n : Int) :
    Dict.get? d' n = Dict.get? d n := by
  refine Option.ext fun v => ?_
  rw [(h.perm hd).get?_eq_some, h.get?_eq_some, hd.mem_iff]

end NatKeyed

theorem keysAre_perm {d d' : Dict} (hd : d.Perm d') (ns : List Int) :
    Dict.keysAre d' ns = Dict.keysAre d ns := by
  simp only [Dict.keysAre, Dict.has, hd.all_eq, hd.any_eq]

/-- A dictionary with the given keys holds what is looked up under them. -/
theorem perm_of_keysAre {d : Dict} {ns : List (ℕ × Value)} (h : NatKeyed d)
    (distinct : (ns.map (·.1)).Nodup) (keys : Dict.keysAre d (ns.map fun e => (e.1 : Int)) = true)
    (hget : ∀ e ∈ ns, Dict.get? d e.1 = some e.2) : d.Perm (natEntries ns) := by
  rw [List.perm_ext_iff_of_nodup (.of_map _ h.distinct)
    (.of_map _ (natKeyed_natEntries distinct).distinct)]
  intro e
  constructor
  · intro he
    obtain ⟨_, hn, hkey⟩ := (Dict.keysAre_iff.1 keys).1 e he
    obtain ⟨x, hx, rfl⟩ := List.mem_map.1 hn
    have hmem : (.int x.1, x.2) ∈ d := h.get?_eq_some.1 (hget x hx)
    obtain ⟨k, hk⟩ := h.key e he
    have hxk : (k : Int) = x.1 := by simpa [hk] using hkey
    have heq : e = (.int x.1, x.2) := h.inj he hmem (by simp [keyNumber, hk, Atom.int?, hxk])
    rw [heq]
    exact List.mem_map.2 ⟨x, hx, rfl⟩
  · intro he
    obtain ⟨x, hx, rfl⟩ := List.mem_map.1 he
    exact h.get?_eq_some.1 (hget x hx)

theorem has_perm {d d' : Dict} (hd : d.Perm d') (n : Int) : Dict.has d' n = Dict.has d n := by
  simp only [Dict.has, hd.any_eq]

/-- What holds of the values under the keys holds of all values. -/
theorem forall_values_of_keysAre {d : Dict} {l : List Int} {P : Value → Prop} (h : NatKeyed d)
    (keys : Dict.keysAre d l = true) (hP : ∀ n ∈ l, ∀ v, Dict.get? d n = some v → P v) :
    ∀ e ∈ d, P e.2 := by
  intro e he
  obtain ⟨n, hn, hkey⟩ := (Dict.keysAre_iff.1 keys).1 e he
  obtain ⟨k, hk⟩ := h.key e he
  obtain rfl : (k : Int) = n := by simpa [hk] using hkey
  refine hP k hn e.2 (h.get?_eq_some.2 ?_)
  rw [← hk]
  exact he

/-- `d[n] = v`, for a key that is in the dictionary. -/
def Dict.set (d : Dict) (n : Int) (v : Value) : Dict :=
  d.map fun e => if e.1.isInt n then (e.1, v) else e

theorem keysAre_set (d : Dict) (n : Int) (v : Value) (ns : List Int) :
    Dict.keysAre (Dict.set d n v) ns = Dict.keysAre d ns := by
  have hkey (e : Atom × Value) : (if e.1.isInt n then (e.1, v) else e).1 = e.1 := by
    split <;> rfl
  simp [Dict.keysAre, Dict.has, Dict.set, List.all_map, List.any_map, Function.comp_def, hkey]

theorem get?_set_of_ne {d : Dict} {n m : Int} {v : Value} (hne : m ≠ n) :
    Dict.get? (Dict.set d n v) m = Dict.get? d m := by
  induction d with
  | nil => rfl
  | cons e d ih =>
    obtain ⟨a, w⟩ := e
    rw [Dict.set, List.map_cons, ← Dict.set]
    by_cases hn : a.isInt n
    · have hm : ¬ a.isInt m := fun hm => hne (Atom.isInt_unique hm hn)
      simp [hn, hm, ih]
    · simp [hn, ih]

theorem get?_set_self {d : Dict} {n : Int} {v w : Value} (h : Dict.get? d n = some w) :
    Dict.get? (Dict.set d n v) n = some v := by
  induction d with
  | nil => cases h
  | cons e d ih =>
    obtain ⟨a, u⟩ := e
    rw [Dict.set, List.map_cons, ← Dict.set]
    by_cases hn : a.isInt n
    · simp [hn]
    · rw [Dict.get?_cons, if_neg hn] at h
      simp [hn, ih h]

/-! ## Values for the wire -/

/-- A value that holds nothing but `None`, integers, floats that equal an integer, byte strings,
text, lists, and dictionaries whose keys are distinct natural numbers. -/
inductive Wire : Value → Prop
  | none : Wire (.atom .none)
  | int (i : Int) : Wire (.atom (.int i))
  | float {bits : BitVec 64} {i : Int} (h : floatInt? bits = some i) : Wire (.atom (.float bits))
  | bytes (b : Bytes) : Wire (.atom (.bytes b))
  | text (t : Text) : Wire (.atom (.text t))
  | list {xs : List Value} (h : ∀ v ∈ xs, Wire v) : Wire (.list xs)
  | dict {d : Dict} (keys : NatKeyed d) (h : ∀ e ∈ d, Wire e.2) : Wire (.dict d)

/-! ## Values in order -/

/-- Entries in ascending order of their numbers are in order. -/
theorem sortByKey_natEntries {l : List (ℕ × Value)} (sorted : (l.map (·.1)).Pairwise (· < ·)) :
    sortByKey (natEntries l) = natEntries l := by
  refine List.Pairwise.insertionSort_eq ?_
  rw [natEntries, List.pairwise_map]
  rw [List.pairwise_map] at sorted
  exact sorted.imp fun {x y} hlt => Int.ofNat_le.2 hlt.le

/-- An ordered dictionary is given by an ascending list of numbers. -/
theorem NatKeyed.exists_natEntries {d : Dict} (h : NatKeyed d) :
    ∃ ns : List (ℕ × Value), (ns.map (·.1)).Pairwise (· < ·) ∧ sortByKey d = natEntries ns := by
  have hkeyed : NatKeyed (sortByKey d) := h.perm (sortByKey_perm d).symm
  have hnumber : ∀ e ∈ sortByKey d, Atom.int (keyNumber e).toNat = e.1 := by
    intro e he
    obtain ⟨n, hn⟩ := hkeyed.key e he
    simp [keyNumber, hn, Atom.int?]
  refine ⟨(sortByKey d).map fun e => ((keyNumber e).toNat, e.2), ?_, ?_⟩
  · rw [List.map_map, List.pairwise_map]
    have hle : (sortByKey d).Pairwise fun e e' => keyNumber e ≤ keyNumber e' :=
      List.pairwise_insertionSort _ d
    have hne : (sortByKey d).Pairwise fun e e' => e ≠ e' := List.Nodup.of_map _ hkeyed.distinct
    refine (hle.and hne).imp_of_mem fun {e e'} he he' hboth => ?_
    have hnumbers : keyNumber e ≤ keyNumber e' := hboth.1
    have hstrict : keyNumber e ≠ keyNumber e' := fun heq => hboth.2 (hkeyed.inj he he' heq)
    obtain ⟨n, hn⟩ := hkeyed.key e he
    obtain ⟨n', hn'⟩ := hkeyed.key e' he'
    simp only [keyNumber, hn, hn', Atom.int?, Option.getD_some, Function.comp_apply] at *
    omega
  · rw [natEntries, List.map_map]
    refine (List.map_congr_left fun e he => ?_).trans (List.map_id _) |>.symm
    exact Prod.ext (hnumber e he) rfl

/-- A value for the wire whose dictionaries are in order. -/
structure InOrder (v : Value) : Prop where
  wire : Wire v
  ordered : v.ordered = v

namespace InOrder

theorem atom {a : Atom} (h : Wire (.atom a)) : InOrder (.atom a) := ⟨h, Value.ordered_atom a⟩

theorem list {xs : List Value} (h : ∀ v ∈ xs, InOrder v) : InOrder (.list xs) := by
  refine ⟨.list fun v hv => (h v hv).wire, ?_⟩
  rw [Value.ordered_list, List.map_congr_left fun v hv => (h v hv).ordered, List.map_id']

theorem natEntries {l : List (ℕ × Value)} (sorted : (l.map (·.1)).Pairwise (· < ·))
    (h : ∀ e ∈ l, InOrder e.2) : InOrder (.dict (natEntries l)) := by
  have hvalues : ∀ e ∈ PyValue.natEntries l, InOrder e.2 := by
    intro e he
    obtain ⟨x, hx, rfl⟩ := List.mem_map.1 he
    exact h x hx
  refine ⟨.dict (natKeyed_natEntries (sorted.imp Nat.ne_of_lt)) fun e he => (hvalues e he).wire, ?_⟩
  rw [Value.ordered_dict, List.map_congr_left fun e he => by rw [(hvalues e he).ordered],
    List.map_id',
    sortByKey_natEntries sorted]

end InOrder

/-- A dictionary of values in order is ordered by ordering its entries. -/
theorem ordered_dict_of_inOrder {d : Dict} (h : ∀ e ∈ d, InOrder e.2) :
    (Value.dict d).ordered = .dict (sortByKey d) := by
  rw [Value.ordered_dict, List.map_congr_left fun e he => by rw [(h e he).ordered], List.map_id']

/-! ## Keys that are integers -/

/-- All keys of all dictionaries are integers. -/
inductive IntKeyed : Value → Prop
  | atom (a : Atom) : IntKeyed (.atom a)
  | list {xs : List Value} (h : ∀ v ∈ xs, IntKeyed v) : IntKeyed (.list xs)
  | dict {d : Dict} (keys : ∀ e ∈ d, ∃ i, e.1 = .int i) (h : ∀ e ∈ d, IntKeyed e.2) :
      IntKeyed (.dict d)

/-- No two keys equal the same number. -/
def DistinctNumbers (d : Dict) : Prop :=
  d.Pairwise fun e e' => ∀ n, ¬ (e.1.isInt n = true ∧ e'.1.isInt n = true)

/-- In no dictionary do two keys equal the same number. -/
inductive Proper : Value → Prop
  | atom (a : Atom) : Proper (.atom a)
  | list {xs : List Value} (h : ∀ v ∈ xs, Proper v) : Proper (.list xs)
  | dict {d : Dict} (distinct : DistinctNumbers d) (h : ∀ e ∈ d, Proper e.2) : Proper (.dict d)

theorem IntKeyed.keys {d : Dict} (h : IntKeyed (.dict d)) : ∀ e ∈ d, ∃ i, e.1 = .int i := by
  cases h with
  | dict keys _ => exact keys

theorem IntKeyed.get? {d : Dict} {n : Int} {v : Value} (h : IntKeyed (.dict d))
    (hv : d.get? n = some v) : IntKeyed v := by
  obtain ⟨a, hmem, -⟩ := Dict.mem_of_get? hv
  cases h with
  | dict _ hvalues => exact hvalues _ hmem

theorem IntKeyed.mem {xs : List Value} (h : IntKeyed (.list xs)) : ∀ v ∈ xs, IntKeyed v := by
  cases h with
  | list h => exact h

theorem Proper.distinct {d : Dict} (h : Proper (.dict d)) : DistinctNumbers d := by
  cases h with
  | dict distinct _ => exact distinct

theorem Proper.get? {d : Dict} {n : Int} {v : Value} (h : Proper (.dict d))
    (hv : d.get? n = some v) : Proper v := by
  obtain ⟨a, hmem, -⟩ := Dict.mem_of_get? hv
  cases h with
  | dict _ hvalues => exact hvalues _ hmem

theorem Proper.mem {xs : List Value} (h : Proper (.list xs)) : ∀ v ∈ xs, Proper v := by
  cases h with
  | list h => exact h

theorem Wire.intKeyed_ordered {v : Value} (h : Wire v) : IntKeyed v.ordered := by
  induction h with
  | none => exact .atom _
  | int i => exact .atom _
  | float h => exact .atom _
  | bytes b => exact .atom _
  | text t => exact .atom _
  | @list xs _ ih =>
    rw [Value.ordered_list]
    refine .list fun w hw => ?_
    obtain ⟨v, hv, rfl⟩ := List.mem_map.1 hw
    exact ih v hv
  | @dict d keys _ ih =>
    rw [Value.ordered_dict]
    have hentry {e : Atom × Value} (he : e ∈ sortByKey (d.map fun e => (e.1, e.2.ordered))) :
        ∃ x ∈ d, (x.1, x.2.ordered) = e := List.mem_map.1 (mem_sortByKey.1 he)
    refine .dict (fun e he => ?_) fun e he => ?_
    · obtain ⟨x, hx, rfl⟩ := hentry he
      obtain ⟨n, hn⟩ := keys.key x hx
      exact ⟨n, hn⟩
    · obtain ⟨x, hx, rfl⟩ := hentry he
      exact ih x hx

/-- The keys of a value for the wire differ as numbers. -/
theorem Wire.proper {v : Value} (h : Wire v) : Proper v := by
  induction h with
  | none => exact .atom _
  | int i => exact .atom _
  | float h => exact .atom _
  | bytes b => exact .atom _
  | text t => exact .atom _
  | list _ ih => exact .list ih
  | @dict d keys _ ih =>
    refine .dict ?_ ih
    have hdistinct := keys.distinct
    rw [List.Nodup, List.pairwise_map] at hdistinct
    refine hdistinct.imp_of_mem fun {e e'} he he' hne n hboth => hne ?_
    obtain ⟨m, hm⟩ := keys.key e he
    obtain ⟨m', hm'⟩ := keys.key e' he'
    rw [hm, hm', Atom.isInt_int, Atom.isInt_int, decide_eq_true_eq, decide_eq_true_eq] at hboth
    rw [hm, hm', hboth.1, hboth.2]

/-- Natural numbers that differ as numbers are distinct. -/
theorem natKeyed_of_distinctNumbers {d : Dict} (keys : ∀ e ∈ d, ∃ n : ℕ, e.1 = .int n)
    (distinct : DistinctNumbers d) : NatKeyed d := by
  refine ⟨keys, ?_⟩
  rw [List.Nodup, List.pairwise_map]
  refine distinct.imp_of_mem fun {e e'} he _ hne heq => ?_
  obtain ⟨n, hn⟩ := keys e he
  exact hne n (by simp [← heq, hn])

/-- Integer keys that differ as numbers are distinct natural numbers, when they are among natural
numbers. -/
theorem natKeyed_of_keysAre {d : Dict} {l : List ℕ}
    (keys : Dict.keysAre d (l.map fun n : ℕ => (n : Int)) = true)
    (integers : ∀ e ∈ d, ∃ i, e.1 = .int i) (distinct : DistinctNumbers d) : NatKeyed d := by
  refine natKeyed_of_distinctNumbers (fun e he => ?_) distinct
  obtain ⟨i, hi⟩ := integers e he
  obtain ⟨_, hn, hkey⟩ := (Dict.keysAre_iff.1 keys).1 e he
  obtain ⟨n, -, rfl⟩ := List.mem_map.1 hn
  have hin : i = n := by simpa [hi] using hkey
  exact ⟨n, by rw [hi, hin]⟩

/-- The second value is the first with its dictionaries in order. -/
structure Orders (v w : Value) : Prop where
  wire : Wire v
  eq : v.ordered = w

theorem InOrder.orders {v : Value} (h : InOrder v) : Orders v v := ⟨h.wire, h.ordered⟩

namespace Orders

theorem list {xs ys : List Value} (h : List.Forall₂ Orders xs ys) :
    Orders (.list xs) (.list ys) := by
  refine ⟨.list fun v hv => ?_, ?_⟩
  · induction h with
    | nil => cases hv
    | cons hx _ ih =>
      rcases List.mem_cons.1 hv with rfl | hv
      · exact hx.wire
      · exact ih hv
  · rw [Value.ordered_list]
    congr 1
    induction h with
    | nil => rfl
    | cons hx _ ih => rw [List.map_cons, hx.eq, ih]

theorem get?_ordered (d : Dict) (n : Int) :
    Dict.get? (d.map fun e => (e.1, e.2.ordered)) n = (Dict.get? d n).map Value.ordered := by
  induction d with
  | nil => rfl
  | cons e d ih =>
    obtain ⟨a, v⟩ := e
    rw [List.map_cons, Dict.get?_cons, Dict.get?_cons, ih]
    split <;> rfl

/-- A dictionary with the given keys, and with values that are ordered to the given ones. -/
theorem dict {d : Dict} {ns : List (ℕ × Value)} (sorted : (ns.map (·.1)).Pairwise (· < ·))
    (keys : Dict.keysAre d (ns.map fun e => (e.1 : Int)) = true) (hd : NatKeyed d)
    (h : ∀ e ∈ ns, ∃ v, Dict.get? d e.1 = some v ∧ Orders v e.2) :
    Orders (.dict d) (.dict (natEntries ns)) := by
  have hkeys : Dict.keysAre (d.map fun e => (e.1, e.2.ordered)) (ns.map fun e => (e.1 : Int)) =
      true := by
    rw [← keys]
    simp [Dict.keysAre, Dict.has, List.all_map, List.any_map, Function.comp_def]
  have hperm : (d.map fun e => (e.1, e.2.ordered)).Perm (natEntries ns) := by
    refine perm_of_keysAre (hd.map _) (sorted.imp Nat.ne_of_lt) hkeys fun e he => ?_
    obtain ⟨v, hv, horders⟩ := h e he
    rw [get?_ordered, hv, Option.map_some, horders.eq]
  refine ⟨.dict hd (forall_values_of_keysAre hd keys fun n hn v hv => ?_), ?_⟩
  · obtain ⟨e, he, rfl⟩ := List.mem_map.1 hn
    obtain ⟨w, hw, horders⟩ := h e he
    obtain rfl := Option.some.inj (hv.symm.trans hw)
    exact horders.wire
  · rw [Value.ordered_dict, (hd.map _).sortByKey_congr hperm, sortByKey_natEntries sorted]

end Orders

end DecentRegistry.PyValue
