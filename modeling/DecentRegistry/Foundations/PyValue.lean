import Mathlib.Data.List.Basic
import Mathlib.Data.List.Sort
import Mathlib.Data.UInt

/-!
# Dynamically typed values

The values a CBOR decoder hands to a Python program: hashable atoms, lists, and dictionaries keyed
by atoms. Two features of the language matter to programs that inspect such values and are kept:

* equality of numbers crosses types, `True == 1 == 1.0` (`Atom.isInt`), and this is the equality
  dictionary lookup and set comparison use (`Dict.get?`, `Dict.keysAre`);
* text is a sequence of code points, compared by code point and encoded as UTF-8 (`utf8`).

`Atom.other` stands for every further hashable object (tagged values, tuples used as keys, the
undefined value), of which a program that looks for numbers, text and bytes can only see that it is
none of these.
-/

namespace DecentRegistry.PyValue

/-- Byte strings. -/
abbrev Bytes := List UInt8

/-- Text: a sequence of code points. -/
abbrev Text := List Char

instance : LawfulBEq Bytes := inferInstance

instance : LawfulBEq Text := inferInstance

instance : LawfulBEq (Option Text) := inferInstance

/-- The UTF-8 encoding of a text. -/
def utf8 (t : Text) : Bytes := t.flatMap String.utf8EncodeChar

/-- Hashable values. -/
inductive Atom
  | none
  | bool (b : Bool)
  | int (i : Int)
  | float (bits : BitVec 64)
  | bytes (b : Bytes)
  | text (t : Text)
  | other (id : Nat)
  deriving DecidableEq

/-- Values. A dictionary lists its entries in insertion order. -/
inductive Value
  | atom (a : Atom)
  | list (xs : List Value)
  | dict (d : List (Atom × Value))

/-- Dictionaries. -/
abbrev Dict := List (Atom × Value)

/-- The integer that a binary64 number equals, if it equals one. -/
def floatInt? (bits : BitVec 64) : Option Int :=
  let fraction := bits.toNat % 2 ^ 52
  let exponent := bits.toNat / 2 ^ 52 % 2 ^ 11
  let signed (n : Nat) : Int := if bits.toNat < 2 ^ 63 then n else -n
  if exponent = 2047 then .none
  else if exponent = 0 then if fraction = 0 then some 0 else .none
  else
    let mantissa := 2 ^ 52 + fraction
    if 1075 ≤ exponent then some (signed (mantissa * 2 ^ (exponent - 1075)))
    else if mantissa % 2 ^ (1075 - exponent) = 0 then
      some (signed (mantissa / 2 ^ (1075 - exponent)))
    else .none

/-- The integer that an atom equals under `==`, if any. -/
def Atom.int? : Atom → Option Int
  | .bool b => some (if b then 1 else 0)
  | .int i => some i
  | .float bits => floatInt? bits
  | _ => .none

/-- `a == n` for an integer `n`. -/
def Atom.isInt (a : Atom) (n : Int) : Bool := a.int? = some n

@[simp] theorem Atom.isInt_int (i n : Int) : (Atom.int i).isInt n = decide (i = n) := by
  simp [Atom.isInt, Atom.int?]

theorem Atom.isInt_unique {a : Atom} {m n : Int} (hm : a.isInt m) (hn : a.isInt n) : m = n := by
  simp only [Atom.isInt, decide_eq_true_eq] at hm hn
  exact Option.some.inj (hm.symm.trans hn)

/-- A value whose dictionaries have integer keys only, in ascending order, and which holds nothing
but `None`, integers, byte strings, text, lists and such dictionaries. -/
inductive Plain : Value → Prop
  | none : Plain (.atom .none)
  | int (i : Int) : Plain (.atom (.int i))
  | bytes (b : Bytes) : Plain (.atom (.bytes b))
  | text (t : Text) : Plain (.atom (.text t))
  | list {xs : List Value} (h : ∀ v ∈ xs, Plain v) : Plain (.list xs)
  | dict {ns : List (ℕ × Value)} (sorted : (ns.map (·.1)).Pairwise (· < ·))
      (h : ∀ e ∈ ns, Plain e.2) : Plain (.dict (ns.map fun e => (.int e.1, e.2)))

namespace Value

def asBytes? : Value → Option Bytes
  | .atom (.bytes b) => some b
  | _ => none

def asText? : Value → Option Text
  | .atom (.text t) => some t
  | _ => none

def asDict? : Value → Option Dict
  | .dict d => some d
  | _ => none

def asList? : Value → Option (List Value)
  | .list xs => some xs
  | _ => none

/-- An `int` that is not a `bool`. -/
def asInt? : Value → Option Int
  | .atom (.int i) => some i
  | _ => none

/-- `v == n` for an integer `n`. -/
def isInt : Value → Int → Bool
  | .atom a, n => a.isInt n
  | _, _ => false

@[simp] theorem asBytes?_eq_some {v : Value} {b : Bytes} :
    v.asBytes? = some b ↔ v = .atom (.bytes b) := by
  cases v with
  | atom a => cases a <;> simp [asBytes?]
  | _ => simp [asBytes?]

@[simp] theorem asText?_eq_some {v : Value} {t : Text} :
    v.asText? = some t ↔ v = .atom (.text t) := by
  cases v with
  | atom a => cases a <;> simp [asText?]
  | _ => simp [asText?]

@[simp] theorem asDict?_eq_some {v : Value} {d : Dict} : v.asDict? = some d ↔ v = .dict d := by
  cases v <;> simp [asDict?]

@[simp] theorem asList?_eq_some {v : Value} {xs : List Value} :
    v.asList? = some xs ↔ v = .list xs := by
  cases v <;> simp [asList?]

@[simp] theorem asInt?_eq_some {v : Value} {i : Int} : v.asInt? = some i ↔ v = .atom (.int i) := by
  cases v with
  | atom a => cases a <;> simp [asInt?]
  | _ => simp [asInt?]

end Value

namespace Dict

/-- `d.get(n)`. -/
def get? (d : Dict) (n : Int) : Option Value := (d.find? (·.1.isInt n)).map (·.2)

/-- `n in d`. -/
def has (d : Dict) (n : Int) : Bool := d.any (·.1.isInt n)

/-- `set(d) == {n₁, …}`. -/
def keysAre (d : Dict) (ns : List Int) : Bool :=
  d.all (fun e => ns.any (e.1.isInt ·)) && ns.all (d.has ·)

@[simp] theorem get?_cons (a : Atom) (v : Value) (d : Dict) (n : Int) :
    get? ((a, v) :: d) n = if a.isInt n then some v else get? d n := by
  by_cases h : a.isInt n <;> simp [get?, h]

theorem has_iff {d : Dict} {n : Int} : d.has n = true ↔ ∃ v, d.get? n = some v := by
  induction d with
  | nil => simp [has, get?]
  | cons e d ih =>
    obtain ⟨a, v⟩ := e
    rw [get?_cons]
    by_cases h : a.isInt n
    · simp [has, h]
    · simp only [has] at ih
      simp [has, h, ih]

theorem keysAre_iff {d : Dict} {ns : List Int} :
    d.keysAre ns = true ↔
      (∀ e ∈ d, ∃ n ∈ ns, e.1.isInt n = true) ∧ ∀ n ∈ ns, ∃ v, d.get? n = some v := by
  simp only [keysAre, Bool.and_eq_true, List.all_eq_true, List.any_eq_true, has_iff]

theorem get?_of_keysAre {d : Dict} {ns : List Int} (h : d.keysAre ns = true) {n : Int}
    (hn : n ∈ ns) : ∃ v, d.get? n = some v :=
  (keysAre_iff.1 h).2 n hn

theorem mem_of_get? {d : Dict} {n : Int} {v : Value} (h : d.get? n = some v) :
    ∃ a, (a, v) ∈ d ∧ a.isInt n = true := by
  simp only [get?, Option.map_eq_some_iff] at h
  obtain ⟨⟨a, w⟩, hf, rfl⟩ := h
  have han := List.find?_some hf
  exact ⟨a, List.mem_of_find?_eq_some hf, han⟩

/-- A key outside `ns` is absent from a dictionary whose keys are `ns`. -/
theorem get?_eq_none_of_keysAre {d : Dict} {ns : List Int} (h : d.keysAre ns = true) {n : Int}
    (hn : n ∉ ns) : d.get? n = none := by
  by_contra hne
  obtain ⟨v, hv⟩ := Option.ne_none_iff_exists'.1 hne
  obtain ⟨a, ha, han⟩ := mem_of_get? hv
  obtain ⟨m, hm, ham⟩ := (keysAre_iff.1 h).1 _ ha
  exact hn (Atom.isInt_unique han ham ▸ hm)

end Dict

/-! ## Sorting by a byte key -/

/-- `sorted(l, key=key)`: a stable sort by the byte order of the keys. -/
def sortedBy {α : Type} (key : α → Bytes) (l : List α) : List α :=
  l.insertionSort (fun a b => key a ≤ key b)

section Sorted

variable {α : Type} (key : α → Bytes)

instance : Std.Total (fun a b : α => key a ≤ key b) := ⟨fun a b => List.le_total (key a) (key b)⟩

instance : IsTrans α (fun a b : α => key a ≤ key b) := ⟨fun _ _ _ => List.le_trans⟩

theorem sortedBy_perm (l : List α) : (sortedBy key l).Perm l := List.perm_insertionSort _ l

theorem pairwise_sortedBy (l : List α) : (sortedBy key l).Pairwise (fun a b => key a ≤ key b) :=
  List.pairwise_insertionSort _ l

end Sorted

end DecentRegistry.PyValue
