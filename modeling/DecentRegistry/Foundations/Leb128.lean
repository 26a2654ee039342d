import Mathlib.Data.List.Basic
import Mathlib.Tactic.Ring

/-!
# LEB128

A natural number as a list of bytes, seven bits in each, the lowest first, with the high bit set in
every byte but the last. `encode` writes the minimal form, and `read` reads any form off the front
of a list, with the number of bytes it has. A number is read off whatever follows (`read_append`),
and what `encode` writes is read back and is shortest (`read_encode`, `length_encode_le_of_read`).
The lists that begin with the minimal form of a number are those on which writing again what was
read gives the bytes read (`encode_eq_take_iff`). -/

namespace DecentRegistry.Leb128

/-- The minimal form. -/
def encode (n : ℕ) : List UInt8 :=
  if n < 128 then [n.toUInt8] else (n % 128 + 128).toUInt8 :: encode (n / 128)

/-- The number at the front, and how many bytes it has; `none` where the bytes end inside it. -/
def read : List UInt8 → Option (ℕ × ℕ)
  | [] => none
  | b :: rest =>
    if b.toNat < 128 then some (b.toNat, 1)
    else (read rest).map fun r => (b.toNat - 128 + 128 * r.1, r.2 + 1)

variable {b : UInt8} {data rest : List UInt8} {n k : ℕ}

theorem toNat_toUInt8_of_lt (h : n < 256) : n.toUInt8.toNat = n := by
  simp [Nat.mod_eq_of_lt h]

theorem encode_of_lt (h : n < 128) : encode n = [n.toUInt8] := by
  rw [encode, if_pos h]

theorem encode_of_le (h : 128 ≤ n) : encode n = (n % 128 + 128).toUInt8 :: encode (n / 128) := by
  rw [encode, if_neg (by omega)]

theorem encode_ne_nil (n : ℕ) : encode n ≠ [] := by
  by_cases h : n < 128
  · simp [encode_of_lt h]
  · simp [encode_of_le (by omega : 128 ≤ n)]

theorem read_cons_of_lt (h : b.toNat < 128) : read (b :: rest) = some (b.toNat, 1) := by
  rw [read, if_pos h]

theorem read_cons_of_le (h : 128 ≤ b.toNat) :
    read (b :: rest) = (read rest).map fun r => (b.toNat - 128 + 128 * r.1, r.2 + 1) := by
  rw [read, if_neg (by omega)]

/-! ## Reading -/

/-- The number at the front does not depend on what follows it. -/
theorem read_append (h : read data = some (n, k)) (rest : List UInt8) :
    read (data ++ rest) = some (n, k) := by
  induction data generalizing n k with
  | nil => cases h
  | cons b data ih =>
    by_cases hb : b.toNat < 128
    · rw [List.cons_append, read_cons_of_lt hb]
      rwa [read_cons_of_lt hb] at h
    · have hb' : 128 ≤ b.toNat := by omega
      rw [read_cons_of_le hb'] at h
      obtain ⟨⟨m, j⟩, hm, he⟩ := Option.map_eq_some_iff.1 h
      rw [List.cons_append, read_cons_of_le hb', ih hm, Option.map_some, he]

/-- It has as many bytes as are read, and at least one. -/
theorem read_size (h : read data = some (n, k)) : 0 < k ∧ k ≤ data.length := by
  induction data generalizing n k with
  | nil => cases h
  | cons b data ih =>
    by_cases hb : b.toNat < 128
    · rw [read_cons_of_lt hb] at h
      obtain ⟨rfl, rfl⟩ := Prod.mk.inj (Option.some.inj h)
      simp
    · rw [read_cons_of_le (by omega)] at h
      obtain ⟨⟨m, j⟩, hm, he⟩ := Option.map_eq_some_iff.1 h
      obtain ⟨-, rfl⟩ := Prod.mk.inj he
      have := ih hm
      simp only [List.length_cons]
      omega

/-- It is read off its own bytes. -/
theorem read_take (h : read data = some (n, k)) {m : ℕ} (hm : k ≤ m) :
    read (data.take m) = some (n, k) := by
  induction data generalizing n k m with
  | nil => cases h
  | cons b data ih =>
    have hpos := (read_size h).1
    obtain ⟨m, rfl⟩ : ∃ m', m = m' + 1 := ⟨m - 1, by omega⟩
    rw [List.take_succ_cons]
    by_cases hb : b.toNat < 128
    · rw [read_cons_of_lt hb] at h ⊢
      exact h
    · have hb' : 128 ≤ b.toNat := by omega
      rw [read_cons_of_le hb'] at h
      obtain ⟨⟨v, j⟩, hv, he⟩ := Option.map_eq_some_iff.1 h
      have hj : j ≤ m := by
        have := (Prod.mk.inj he).2
        omega
      rw [read_cons_of_le hb', ih hv hj, Option.map_some, he]

/-! ## Writing -/

theorem read_encode_append (n : ℕ) (rest : List UInt8) :
    read (encode n ++ rest) = some (n, (encode n).length) := by
  induction n using Nat.strongRecOn with
  | ind n ih =>
    by_cases h : n < 128
    · have hbyte : n.toUInt8.toNat = n := toNat_toUInt8_of_lt (by omega)
      rw [encode_of_lt h, List.singleton_append, read_cons_of_lt (by omega), hbyte]
      rfl
    · have hbyte : (n % 128 + 128).toUInt8.toNat = n % 128 + 128 := toNat_toUInt8_of_lt (by omega)
      have hvalue : n % 128 + 128 - 128 + 128 * (n / 128) = n := by omega
      rw [encode_of_le (by omega), List.cons_append, read_cons_of_le (by omega),
        ih (n / 128) (by omega), Option.map_some, hbyte, hvalue]
      rfl

/-- What was written is read back. -/
theorem read_encode (n : ℕ) : read (encode n) = some (n, (encode n).length) := by
  have h := read_encode_append n []
  rwa [List.append_nil] at h

/-- Seven bits in each byte. -/
theorem length_encode_le (j : ℕ) (h : n < 128 ^ (j + 1)) : (encode n).length ≤ j + 1 := by
  induction j generalizing n with
  | zero =>
    rw [encode_of_lt (by omega)]
    simp
  | succ j ih =>
    by_cases hn : n < 128
    · rw [encode_of_lt hn]
      simp
    · rw [encode_of_le (by omega), List.length_cons]
      have hdiv : n / 128 < 128 ^ (j + 1) := by
        rw [Nat.div_lt_iff_lt_mul (by decide), ← Nat.pow_succ]
        exact h
      have := ih hdiv
      omega

/-- **Lists that begin with the minimal form of a number.** -/
theorem encode_eq_take_iff :
    read data = some (n, k) ∧ encode n = data.take k ↔
      ∃ rest, data = encode n ++ rest ∧ k = (encode n).length := by
  constructor
  · rintro ⟨hread, henc⟩
    have hlen : (encode n).length = k := by
      rw [henc, List.length_take, min_eq_left (read_size hread).2]
    refine ⟨data.drop k, ?_, hlen.symm⟩
    rw [henc, List.take_append_drop]
  · rintro ⟨rest, rfl, rfl⟩
    exact ⟨read_encode_append n rest, by rw [List.take_left]⟩

end DecentRegistry.Leb128
