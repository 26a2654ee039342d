import Mathlib.Data.List.Basic
import Mathlib.Logic.Function.Basic
import Mathlib.Data.Nat.Notation

/-!
# File systems

Names stand for numbered files, several names possibly for one: `link` gives a file a second name
and `unlink` takes a name away, neither touches a file. This module has the changes of a file system
and what each leaves of `node`, the thing a path stands for. -/

namespace DecentRegistry

/-- A directory and a name in it. -/
structure FilePath where
  parent : List Char
  name : List Char
  deriving DecidableEq

/-- What a name may stand for. -/
inductive Node
  | file (mode : ℕ) (content : List UInt8)
  | directory
  | symlink (target : FilePath)
  deriving DecidableEq

/-- The names, and the files by number. -/
structure FileSystem where
  entries : FilePath → Option ℕ
  nodes : List Node
  valid : ∀ p i, entries p = some i → i < nodes.length

namespace FileSystem

/-- What a path stands for. -/
def node (fs : FileSystem) (p : FilePath) : Option Node := (fs.entries p).bind (fs.nodes[·]?)

/-- A new empty file. -/
def create (fs : FileSystem) (p : FilePath) (mode : ℕ) : FileSystem where
  entries := Function.update fs.entries p (some fs.nodes.length)
  nodes := fs.nodes ++ [.file mode []]
  valid q i h := by
    rw [List.length_append, List.length_singleton]
    by_cases hq : q = p
    · rw [hq, Function.update_self, Option.some.injEq] at h
      omega
    · rw [Function.update_of_ne hq] at h
      exact Nat.lt_succ_of_lt (fs.valid q i h)

/-- A change of one file. -/
def change (fs : FileSystem) (i : ℕ) (f : Node → Node) : FileSystem where
  entries := fs.entries
  nodes := fs.nodes.modify i f
  valid p j h := by
    rw [List.length_modify]
    exact fs.valid p j h

/-- A second name for a file. -/
def link (fs : FileSystem) (source destination : FilePath) : FileSystem where
  entries := Function.update fs.entries destination (fs.entries source)
  nodes := fs.nodes
  valid q i h := by
    by_cases hq : q = destination
    · rw [hq, Function.update_self] at h
      exact fs.valid source i h
    · rw [Function.update_of_ne hq] at h
      exact fs.valid q i h

/-- One name fewer. -/
def unlink (fs : FileSystem) (p : FilePath) : FileSystem where
  entries := Function.update fs.entries p none
  nodes := fs.nodes
  valid q i h := by
    by_cases hq : q = p
    · rw [hq, Function.update_self] at h
      cases h
    · rw [Function.update_of_ne hq] at h
      exact fs.valid q i h

variable {fs : FileSystem} {p q : FilePath} {i mode : ℕ} {f : Node → Node}

theorem node_of_entry (h : fs.entries p = some i) : fs.node p = fs.nodes[i]? := by
  rw [node, h, Option.bind_some]

theorem node_eq_none : fs.node p = none ↔ fs.entries p = none := by
  cases h : fs.entries p with
  | none => simp [node, h]
  | some i => simp [node_of_entry h, fs.valid p i h]

/-- A number that is not in use. -/
theorem entries_ne_length : fs.entries p ≠ some fs.nodes.length := by
  intro h
  exact absurd (fs.valid p _ h) (Nat.lt_irrefl _)

/-! ## New files -/

theorem entries_create : (fs.create p mode).entries p = some fs.nodes.length :=
  Function.update_self ..

theorem entries_create_of_ne (h : q ≠ p) : (fs.create p mode).entries q = fs.entries q :=
  Function.update_of_ne h ..

theorem nodes_create : (fs.create p mode).nodes[fs.nodes.length]? = some (.file mode []) := by
  simp [create]

theorem node_create_of_ne (h : q ≠ p) : (fs.create p mode).node q = fs.node q := by
  cases hq : fs.entries q with
  | none =>
    rw [node_eq_none.2 hq, node_eq_none, entries_create_of_ne h, hq]
  | some i =>
    rw [node_of_entry hq, node_of_entry ((entries_create_of_ne h).trans hq)]
    exact List.getElem?_append_left (fs.valid q i hq)

/-! ## Changed files -/

theorem nodes_change : (fs.change i f).nodes[i]? = fs.nodes[i]?.map f := by
  simp [change, List.getElem?_modify_eq]

theorem node_change_of_ne (h : fs.entries p ≠ some i) : (fs.change i f).node p = fs.node p := by
  cases hp : fs.entries p with
  | none =>
    rw [node_eq_none.2 hp, node_eq_none]
    exact hp
  | some j =>
    have hj : i ≠ j := by
      rintro rfl
      exact h hp
    have hchanged : (fs.change i f).entries p = some j := hp
    rw [node_of_entry hp, node_of_entry hchanged]
    exact List.getElem?_modify_ne f fs.nodes hj

/-! ## Names -/

theorem entries_link : (fs.link q p).entries p = fs.entries q := Function.update_self ..

theorem entries_unlink_of_ne (h : p ≠ q) : (fs.unlink q).entries p = fs.entries p :=
  Function.update_of_ne h ..

theorem node_link : (fs.link q p).node p = fs.node q := by
  rw [node, entries_link]
  rfl

theorem node_unlink_of_ne (h : p ≠ q) : (fs.unlink q).node p = fs.node p := by
  rw [node, entries_unlink_of_ne h]
  rfl

end FileSystem

end DecentRegistry
