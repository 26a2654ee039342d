import DecentRegistry.Foundations.Sha256
import DecentRegistry.Foundations.Fallible
import Mathlib.Tactic.Ring

/-!
# Canonical CBOR

The canonical encoding of dynamically typed values, and a decoder for it: null, booleans, integers
of 64 bits, byte strings, ASCII texts, arrays and maps. Maps are written in the canonical order of
their encoded keys, the shorter first and then bytewise. `decode_encode` is the round trip, for
plain values. -/

namespace DecentRegistry.Cbor

open PyValue Sha256

/-! ## Heads -/

/-- The number that bytes spell, the most significant first. -/
def ofBigEndian (b : Bytes) : ℕ := b.foldl (fun n x => 256 * n + x.toNat) 0

/-- A major type with its argument, in the shortest form. -/
def head (major n : ℕ) : Option Bytes :=
  if n < 24 then some [UInt8.ofNat (32 * major + n)]
  else if n < 256 then some (UInt8.ofNat (32 * major + 24) :: bigEndian 1 n)
  else if n < 65536 then some (UInt8.ofNat (32 * major + 25) :: bigEndian 2 n)
  else if n < 4294967296 then some (UInt8.ofNat (32 * major + 26) :: bigEndian 4 n)
  else if n < 18446744073709551616 then some (UInt8.ofNat (32 * major + 27) :: bigEndian 8 n)
  else none

/-- Split off a given number of bytes. -/
def readBytes (n : ℕ) (b : Bytes) : Option (Bytes × Bytes) :=
  if b.length < n then none else some (b.take n, b.drop n)

/-- Read a major type and its argument. -/
def readHead : Bytes → Option (ℕ × ℕ × Bytes)
  | [] => none
  | x :: rest =>
    let info := x.toNat % 32
    if info < 24 then some (x.toNat / 32, info, rest)
    else if info < 28 then
      (readBytes (2 ^ (info - 24)) rest).map fun r => (x.toNat / 32, ofBigEndian r.1, r.2)
    else none

theorem foldl_bigEndian (k n acc : ℕ) :
    (bigEndian k n).foldl (fun n x => 256 * n + x.toNat) acc = acc * 256 ^ k + n % 256 ^ k := by
  induction k generalizing acc with
  | zero => simp [bigEndian, Nat.mod_one]
  | succ k ih =>
    have hpow : 2 ^ (8 * k) = 256 ^ k := by rw [Nat.pow_mul]
    have hsplit : n % 256 ^ (k + 1) = 256 ^ k * (n / 256 ^ k % 256) + n % 256 ^ k := by
      rw [Nat.pow_succ, Nat.mod_mul, Nat.add_comm]
    rw [bigEndian, List.foldl_cons, ih, hsplit, UInt8.toNat_ofNat', Nat.shiftRight_eq_div_pow, hpow,
      show (2 ^ 8 : ℕ) = 256 from rfl]
    ring

theorem ofBigEndian_bigEndian {k n : ℕ} (h : n < 256 ^ k) : ofBigEndian (bigEndian k n) = n := by
  rw [ofBigEndian, foldl_bigEndian, Nat.zero_mul, Nat.zero_add, Nat.mod_eq_of_lt h]

theorem readBytes_append (a rest : Bytes) : readBytes a.length (a ++ rest) = some (a, rest) := by
  simp [readBytes]

/-- A head of `k` further bytes is read back. -/
theorem readHead_long {major info k n : ℕ} {rest : Bytes} (hmajor : major < 8)
    (hinfo : 24 ≤ info ∧ info < 28) (hk : 2 ^ (info - 24) = k) (hn : n < 256 ^ k) :
    readHead (UInt8.ofNat (32 * major + info) :: bigEndian k n ++ rest) =
      some (major, n, rest) := by
  have hbyte : (UInt8.ofNat (32 * major + info)).toNat = 32 * major + info := by
    rw [UInt8.toNat_ofNat']
    omega
  have hbytes : readBytes k (bigEndian k n ++ rest) = some (bigEndian k n, rest) := by
    simpa using readBytes_append (bigEndian k n) rest
  simp only [readHead, List.cons_append, hbyte, show (32 * major + info) % 32 = info by omega,
    show (32 * major + info) / 32 = major by omega, show ¬ info < 24 by omega, hinfo.2, if_false,
    if_true, hk, hbytes, Option.map_some, ofBigEndian_bigEndian hn]

theorem readHead_head {major n : ℕ} {h rest : Bytes} (hmajor : major < 8)
    (hh : head major n = some h) : readHead (h ++ rest) = some (major, n, rest) := by
  unfold head at hh
  split at hh
  · obtain rfl := Option.some.inj hh
    have hbyte : (UInt8.ofNat (32 * major + n)).toNat = 32 * major + n := by
      rw [UInt8.toNat_ofNat']
      omega
    simp only [readHead, List.singleton_append, hbyte]
    rw [if_pos (by omega), show (32 * major + n) / 32 = major by omega,
      show (32 * major + n) % 32 = n by omega]
  · split at hh
    · obtain rfl := Option.some.inj hh
      exact readHead_long hmajor (by decide) rfl (by omega)
    split at hh
    · obtain rfl := Option.some.inj hh
      exact readHead_long hmajor (by decide) rfl (by omega)
    split at hh
    · obtain rfl := Option.some.inj hh
      exact readHead_long hmajor (by decide) rfl (by omega)
    split at hh
    · obtain rfl := Option.some.inj hh
      exact readHead_long hmajor (by decide) rfl (by omega)
    · cases hh

theorem head_ne_nil {major n : ℕ} {h : Bytes} (hh : head major n = some h) : 1 ≤ h.length := by
  unfold head at hh
  split_ifs at hh <;> obtain rfl := Option.some.inj hh <;> simp

/-! ## Encoding -/

/-- ASCII characters are written as one byte. -/
def encodeAscii (t : Text) : Option Bytes :=
  if t.all (·.toNat < 128) then some (t.map fun c => UInt8.ofNat c.toNat) else none

def encodeAtom : Atom → Option Bytes
  | .none => some [0xf6]
  | .bool b => some [if b then 0xf5 else 0xf4]
  | .int i => if 0 ≤ i then head 0 i.toNat else head 1 (-1 - i).toNat
  | .bytes b => (head 2 b.length).map (· ++ b)
  | .text t => do return (← head 3 t.length) ++ (← encodeAscii t)
  | .float _ | .other _ => none

/-- The canonical order of encoded keys, as an order of numbers. -/
def keyRank (key : Bytes) : ℕ := ofBigEndian (1 :: key)

/-- The entries of a map in canonical order. -/
def sortEntries (entries : List (Bytes × Bytes)) : List (Bytes × Bytes) :=
  entries.insertionSort fun a b => keyRank a.1 ≤ keyRank b.1

mutual

/-- The canonical encoding; `none` for what it does not cover. -/
def encode : Value → Option Bytes
  | .atom a => encodeAtom a
  | .list xs => do return (← head 4 xs.length) ++ (← encodeList xs)
  | .dict d => do
    return (← head 5 d.length) ++ (sortEntries (← encodeEntries d)).flatMap fun e => e.1 ++ e.2

def encodeList : List Value → Option Bytes
  | [] => some []
  | v :: xs => do return (← encode v) ++ (← encodeList xs)

def encodeEntries : List (Atom × Value) → Option (List (Bytes × Bytes))
  | [] => some []
  | (a, v) :: d => do return (← encodeAtom a, ← encode v) :: (← encodeEntries d)

end

/-! ## Decoding -/

def decodeAscii (b : Bytes) : Option Text :=
  if b.all (· < 128) then some (b.map fun x => Char.ofNat x.toNat) else none

/-- Read `n` items one after another. -/
def readMany {α : Type} (read : Bytes → Option (α × Bytes)) : ℕ → Bytes → Option (List α × Bytes)
  | 0, b => some ([], b)
  | n + 1, b => do
    let (x, rest) ← read b
    let (xs, rest) ← readMany read n rest
    return (x :: xs, rest)

/-- Read a key and a value. -/
def readEntry (read : Bytes → Option (Value × Bytes)) (b : Bytes) :
    Option ((Atom × Value) × Bytes) :=
  match read b with
  | some (.atom a, rest) => (read rest).map fun r => ((a, r.1), r.2)
  | _ => none

/-- Read one value; the fuel bounds the nesting. -/
def read : ℕ → Bytes → Option (Value × Bytes)
  | 0, _ => none
  | fuel + 1, b =>
    match readHead b with
    | some (0, n, rest) => some (.atom (.int n), rest)
    | some (1, n, rest) => some (.atom (.int (-1 - n)), rest)
    | some (2, n, rest) => (readBytes n rest).map fun r => (.atom (.bytes r.1), r.2)
    | some (3, n, rest) =>
      (readBytes n rest).bind fun r => (decodeAscii r.1).map fun t => (.atom (.text t), r.2)
    | some (4, n, rest) => (readMany (read fuel) n rest).map fun r => (.list r.1, r.2)
    | some (5, n, rest) => (readMany (readEntry (read fuel)) n rest).bind fun r =>
      if (r.1.map (·.1)).Nodup then some (.dict r.1, r.2) else none
    | some (7, 20, rest) => some (.atom (.bool false), rest)
    | some (7, 21, rest) => some (.atom (.bool true), rest)
    | some (7, 22, rest) => some (.atom .none, rest)
    | _ => none

/-- Decode a value that takes up all the bytes. -/
def decode (b : Bytes) : Option Value :=
  match read b.length b with
  | some (v, []) => some v
  | _ => none

/-! ## Round trip -/

theorem encodeAscii_eq_some {t : Text} {b : Bytes} (h : encodeAscii t = some b) :
    b.length = t.length ∧ decodeAscii b = some t := by
  unfold encodeAscii at h
  split at h
  · rename_i hall
    obtain rfl := Option.some.inj h
    have hc : ∀ c ∈ t, c.toNat < 128 := by simpa using hall
    have hbyte : ∀ c ∈ t, (UInt8.ofNat c.toNat).toNat = c.toNat := fun c hmem => by
      rw [UInt8.toNat_ofNat', Nat.mod_eq_of_lt (Nat.lt_trans (hc c hmem) (by decide))]
    refine ⟨by simp, ?_⟩
    have hsmall : (t.map fun c => UInt8.ofNat c.toNat).all (· < 128) = true := by
      simp only [List.all_map, List.all_eq_true, Function.comp_apply, decide_eq_true_eq,
        UInt8.lt_iff_toNat_lt]
      exact fun c hmem => (hbyte c hmem).trans_lt (hc c hmem)
    rw [decodeAscii, if_pos hsmall, List.map_map]
    congr 1
    exact List.map_id'' (fun c => Char.ofNat_toNat c) t |> fun h =>
      (List.map_congr_left fun c hmem => by simp [hbyte c hmem]).trans h
  · cases h

/-- Items that are read one by one are read together. -/
theorem readMany_append {α : Type} {read : Bytes → Option (α × Bytes)} {items : List (α × Bytes)}
    (h : ∀ item ∈ items, ∀ rest, read (item.2 ++ rest) = some (item.1, rest)) (rest : Bytes) :
    readMany read items.length (items.flatMap (·.2) ++ rest) = some (items.map (·.1), rest) := by
  induction items with
  | nil => rfl
  | cons item items ih =>
    have hhead := h item (by simp) (items.flatMap (·.2) ++ rest)
    have htail := ih fun i hi => h i (by simp [hi])
    simp [readMany, List.append_assoc, hhead, htail]

theorem encodeList_eq_some {xs : List Value} {b : Bytes} (h : encodeList xs = some b) :
    ∃ items : List (Value × Bytes), items.map (·.1) = xs ∧ b = items.flatMap (·.2) ∧
      ∀ item ∈ items, encode item.1 = some item.2 := by
  induction xs generalizing b with
  | nil =>
    obtain rfl := Option.some.inj h
    exact ⟨[], rfl, rfl, by simp⟩
  | cons v xs ih =>
    simp only [encodeList, Option.bind_eq_bind, Option.bind_eq_some_iff, Option.pure_def,
      Option.some.injEq] at h
    obtain ⟨a, ha, c, hc, rfl⟩ := h
    obtain ⟨items, rfl, rfl, hitems⟩ := ih hc
    exact ⟨(v, a) :: items, rfl, rfl, by simpa [ha] using hitems⟩

theorem encodeEntries_eq_some {d : List (Atom × Value)} {entries : List (Bytes × Bytes)}
    (h : encodeEntries d = some entries) :
    ∃ items : List ((Atom × Value) × (Bytes × Bytes)), items.map (·.1) = d ∧
      items.map (·.2) = entries ∧
      ∀ item ∈ items, encodeAtom item.1.1 = some item.2.1 ∧ encode item.1.2 = some item.2.2 := by
  induction d generalizing entries with
  | nil =>
    obtain rfl := Option.some.inj h
    exact ⟨[], rfl, rfl, by simp⟩
  | cons e d ih =>
    obtain ⟨a, v⟩ := e
    simp only [encodeEntries, Option.bind_eq_bind, Option.bind_eq_some_iff, Option.pure_def,
      Option.some.injEq] at h
    obtain ⟨k, hk, w, hw, rest, hrest, rfl⟩ := h
    obtain ⟨items, rfl, rfl, hitems⟩ := ih hrest
    exact ⟨((a, v), (k, w)) :: items, rfl, rfl, by simpa [hk, hw] using hitems⟩

/-- The rank of the key of a natural number. -/
def natRank (n : ℕ) : ℕ :=
  if n < 24 then 256 + n
  else if n < 256 then 280 * 256 + n
  else if n < 65536 then 281 * 65536 + n
  else if n < 4294967296 then 282 * 4294967296 + n
  else 283 * 18446744073709551616 + n

theorem keyRank_cons_bigEndian {x : UInt8} {k n : ℕ} (h : n < 256 ^ k) :
    keyRank (x :: bigEndian k n) = (256 + x.toNat) * 256 ^ k + n := by
  rw [keyRank, ofBigEndian, List.foldl_cons, List.foldl_cons, foldl_bigEndian, Nat.mod_eq_of_lt h]
  rfl

theorem keyRank_head {n : ℕ} {h : Bytes} (hh : head 0 n = some h) : keyRank h = natRank n := by
  unfold head at hh
  unfold natRank
  split_ifs at hh with h₁ h₂ h₃ h₄ h₅ <;> obtain rfl := Option.some.inj hh
  · rw [if_pos h₁, keyRank, ofBigEndian]
    simp only [Nat.mul_zero, Nat.zero_add, List.foldl_cons, List.foldl_nil, UInt8.toNat_ofNat']
    rw [Nat.mod_eq_of_lt (by omega)]
    rfl
  · rw [keyRank_cons_bigEndian (by omega), if_neg h₁, if_pos h₂]
    rfl
  · rw [keyRank_cons_bigEndian (by omega), if_neg h₁, if_neg h₂, if_pos h₃]
    rfl
  · rw [keyRank_cons_bigEndian (by omega), if_neg h₁, if_neg h₂, if_neg h₃, if_pos h₄]
    rfl
  · rw [keyRank_cons_bigEndian (by omega), if_neg h₁, if_neg h₂, if_neg h₃, if_neg h₄]
    rfl

theorem natRank_lt {m n : ℕ} (h : m < n) : natRank m < natRank n := by
  unfold natRank
  split_ifs <;> omega

/-- Entries under ascending numbers are in canonical order. -/
theorem sortEntries_eq_self {items : List ((Atom × Value) × (Bytes × Bytes))}
    {ns : List (ℕ × Value)} (hd : items.map (·.1) = ns.map fun e => (.int e.1, e.2))
    (hkeys : ∀ item ∈ items, encodeAtom item.1.1 = some item.2.1)
    (sorted : (ns.map (·.1)).Pairwise (· < ·)) :
    sortEntries (items.map (·.2)) = items.map (·.2) := by
  refine List.Pairwise.insertionSort_eq ?_
  induction items generalizing ns with
  | nil => exact .nil
  | cons item items ih =>
    cases ns with
    | nil => cases hd
    | cons e ns =>
      simp only [List.map_cons, List.cons.injEq] at hd
      rw [List.map_cons, List.pairwise_cons] at sorted ⊢
      refine ⟨fun pair hpair => ?_, ih hd.2 (fun i hi => hkeys i (by simp [hi])) sorted.2⟩
      obtain ⟨item', hmem, rfl⟩ := List.mem_map.1 hpair
      obtain ⟨e', he', heq⟩ : ∃ e' ∈ ns, (Atom.int e'.1, e'.2) = item'.1 := by
        have : item'.1 ∈ items.map (·.1) := List.mem_map.2 ⟨item', hmem, rfl⟩
        rw [hd.2] at this
        exact List.mem_map.1 this
      have hlt : e.1 < e'.1 := sorted.1 _ (List.mem_map.2 ⟨e', he', rfl⟩)
      have hk := hkeys item (by simp)
      have hk' := hkeys item' (by simp [hmem])
      rw [hd.1] at hk
      rw [← heq] at hk'
      simp only [encodeAtom, Int.natCast_nonneg, if_true, Int.toNat_natCast] at hk hk'
      rw [keyRank_head hk, keyRank_head hk']
      exact (natRank_lt hlt).le

theorem length_le_flatMap {α : Type} {f : α → Bytes} {l : List α} {a : α} (h : a ∈ l) :
    (f a).length ≤ (l.flatMap f).length := by
  induction l with
  | nil => cases h
  | cons x l ih =>
    rw [List.flatMap_cons, List.length_append]
    rcases List.mem_cons.1 h with rfl | h
    · exact Nat.le_add_right _ _
    · exact (ih h).trans (Nat.le_add_left _ _)

theorem exists_fuel {fuel n : ℕ} (h : n ≤ fuel) (hn : 1 ≤ n) : ∃ f, fuel = f + 1 :=
  ⟨fuel - 1, by omega⟩

theorem read_int {i : ℤ} {b rest : Bytes} {fuel : ℕ} (h : encodeAtom (.int i) = some b)
    (hfuel : b.length ≤ fuel) : read fuel (b ++ rest) = some (.atom (.int i), rest) := by
  simp only [encodeAtom] at h
  split at h
  · obtain ⟨fuel, rfl⟩ := exists_fuel hfuel (head_ne_nil h)
    simp only [read, readHead_head (by decide) h, Option.some.injEq, Prod.mk.injEq,
      Value.atom.injEq, Atom.int.injEq, and_true]
    omega
  · obtain ⟨fuel, rfl⟩ := exists_fuel hfuel (head_ne_nil h)
    simp only [read, readHead_head (by decide) h, Option.some.injEq, Prod.mk.injEq,
      Value.atom.injEq, Atom.int.injEq, and_true]
    omega

/-- The entries of a dictionary are read back, each as its key and then its value. -/
theorem readMany_entries {items : List ((Atom × Value) × (Bytes × Bytes))}
    {ns : List (ℕ × Value)} {fuel : ℕ}
    (hd : items.map (·.1) = ns.map fun e => (.int e.1, e.2))
    (hitems : ∀ item ∈ items, encodeAtom item.1.1 = some item.2.1 ∧
      encode item.1.2 = some item.2.2)
    (hread : ∀ e ∈ ns, ∀ b rest, encode e.2 = some b → b.length ≤ fuel →
      read fuel (b ++ rest) = some (e.2, rest))
    (hfuel : ((items.map (·.2)).flatMap fun e => e.1 ++ e.2).length ≤ fuel) (rest : Bytes) :
    readMany (readEntry (read fuel)) ns.length
        ((items.map (·.2)).flatMap (fun e => e.1 ++ e.2) ++ rest) =
      some (ns.map fun e => (.int e.1, e.2), rest) := by
  let written := items.map fun item => (item.1, item.2.1 ++ item.2.2)
  have hbytes : (items.map (·.2)).flatMap (fun e => e.1 ++ e.2) = written.flatMap (·.2) := by
    simp [written, List.flatMap_map]
  have hvalues : written.map (·.1) = ns.map fun e => (.int e.1, e.2) := by
    simpa [written, List.map_map, Function.comp_def] using hd
  have hcount : ns.length = written.length := by
    simpa using (congrArg List.length hvalues).symm
  rw [hbytes] at hfuel ⊢
  rw [hcount, ← hvalues]
  refine readMany_append (fun entry hmem rest => ?_) rest
  have hle := length_le_flatMap (f := fun i : (Atom × Value) × Bytes => i.2) hmem
  obtain ⟨item, hitem, rfl⟩ := List.mem_map.1 hmem
  obtain ⟨hkey, hvalue⟩ := hitems item hitem
  obtain ⟨e, he, heq⟩ : ∃ e ∈ ns, (Atom.int e.1, e.2) = item.1 :=
    List.mem_map.1 (hd ▸ List.mem_map.2 ⟨item, hitem, rfl⟩)
  rw [List.length_append] at hle
  rw [← heq] at hkey hvalue ⊢
  have hk : read fuel (item.2.1 ++ (item.2.2 ++ rest)) =
      some (.atom (.int e.1), item.2.2 ++ rest) := read_int hkey (by omega)
  have hv : read fuel (item.2.2 ++ rest) = some (e.2, rest) := hread e he _ _ hvalue (by omega)
  simp only [readEntry, List.append_assoc, hk, hv, Option.map_some]

/-- Ascending integer keys are distinct. -/
theorem nodup_keys {ns : List (ℕ × Value)} (sorted : (ns.map (·.1)).Pairwise (· < ·)) :
    ((ns.map fun e => (Atom.int e.1, e.2)).map (·.1)).Nodup := by
  have hkeys : (ns.map fun e => (Atom.int e.1, e.2)).map (·.1) =
      (ns.map (·.1)).map fun n : ℕ => Atom.int n := by
    simp only [List.map_map, Function.comp_def]
  rw [hkeys]
  exact List.Nodup.map (fun m n h => by simpa using h) (sorted.imp Nat.ne_of_lt)

/-- **Reading back what was encoded.** -/
theorem read_encode {v : Value} (hv : Plain v) :
    ∀ (b : Bytes) (fuel : ℕ) (rest : Bytes), encode v = some b → b.length ≤ fuel →
      read fuel (b ++ rest) = some (v, rest) := by
  induction hv with
  | none =>
    intro b fuel rest h hfuel
    obtain rfl : [0xf6] = b := by simpa [encode, encodeAtom] using h
    obtain ⟨fuel, rfl⟩ := exists_fuel hfuel (by simp)
    rfl
  | int i =>
    intro b fuel rest h hfuel
    exact read_int (by simpa only [encode] using h) hfuel
  | bytes bs =>
    intro b fuel rest h hfuel
    simp only [encode, encodeAtom, Option.map_eq_some_iff] at h
    obtain ⟨hd, hhd, rfl⟩ := h
    rw [List.length_append] at hfuel
    obtain ⟨fuel, rfl⟩ := exists_fuel hfuel (Nat.le_add_right_of_le (head_ne_nil hhd))
    simp only [read, List.append_assoc, readHead_head (by decide) hhd, readBytes_append,
      Option.map_some]
  | text t =>
    intro b fuel rest h hfuel
    simp only [encode, encodeAtom, Option.bind_eq_bind, Option.bind_eq_some_iff, Option.pure_def,
      Option.some.injEq] at h
    obtain ⟨hd, hhd, bs, hbs, rfl⟩ := h
    rw [List.length_append] at hfuel
    obtain ⟨fuel, rfl⟩ := exists_fuel hfuel (Nat.le_add_right_of_le (head_ne_nil hhd))
    obtain ⟨hlen, hdecode⟩ := encodeAscii_eq_some hbs
    simp only [read, List.append_assoc, readHead_head (by decide) hhd, ← hlen, readBytes_append,
      Option.bind_some, hdecode, Option.map_some]
  | @list xs _ ih =>
    intro b fuel rest h hfuel
    simp only [encode, Option.bind_eq_bind, Option.bind_eq_some_iff, Option.pure_def,
      Option.some.injEq] at h
    obtain ⟨hd, hhd, bs, hbs, rfl⟩ := h
    obtain ⟨items, rfl, rfl, hitems⟩ := encodeList_eq_some hbs
    have hlen := head_ne_nil hhd
    rw [List.length_append] at hfuel
    obtain ⟨fuel, rfl⟩ := exists_fuel hfuel (Nat.le_add_right_of_le hlen)
    have hmany : readMany (read fuel) items.length (items.flatMap (·.2) ++ rest) =
        some (items.map (·.1), rest) := by
      refine readMany_append (fun item hmem rest => ?_) rest
      have := length_le_flatMap (f := fun i : Value × Bytes => i.2) hmem
      exact ih _ (List.mem_map.2 ⟨item, hmem, rfl⟩) _ _ _ (hitems item hmem) (by omega)
    simp only [read, List.append_assoc, readHead_head (by decide) hhd, List.length_map, hmany,
      Option.map_some]
  | @dict ns sorted _ ih =>
    intro b fuel rest h hfuel
    simp only [encode, Option.bind_eq_bind, Option.bind_eq_some_iff, Option.pure_def,
      Option.some.injEq] at h
    obtain ⟨hd, hhd, entries, hentries, rfl⟩ := h
    obtain ⟨items, hd', rfl, hitems⟩ := encodeEntries_eq_some hentries
    rw [sortEntries_eq_self hd' (fun item hmem => (hitems item hmem).1) sorted] at hfuel ⊢
    have hlen := head_ne_nil hhd
    rw [List.length_append] at hfuel
    obtain ⟨fuel, rfl⟩ := exists_fuel hfuel (Nat.le_add_right_of_le hlen)
    have hmany := readMany_entries hd' hitems (fun e he b rest => ih e he b fuel rest)
      (by omega) rest
    simp only [read, List.append_assoc, readHead_head (by decide) hhd, List.length_map, hmany,
      Option.bind_some]
    rw [if_pos (nodup_keys sorted)]

/-- **Round trip.** -/
theorem decode_encode {v : Value} {b : Bytes} (hv : Plain v) (h : encode v = some b) :
    decode b = some v := by
  have := read_encode hv b b.length [] h le_rfl
  rw [List.append_nil] at this
  simp [decode, this]

end DecentRegistry.Cbor
