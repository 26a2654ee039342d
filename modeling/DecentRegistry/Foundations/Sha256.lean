import DecentRegistry.Foundations.PyValue

/-!
# SHA-256

The hash function, on natural numbers below `2 ^ 32`, written with the operations of `Nat` that
evaluate quickly.
-/

namespace DecentRegistry.Sha256

open PyValue

/-- The round constants. -/
def roundConstants : List ℕ :=
  [0x428a2f98, 0x71374491, 0xb5c0fbcf, 0xe9b5dba5, 0x3956c25b, 0x59f111f1, 0x923f82a4, 0xab1c5ed5,
   0xd807aa98, 0x12835b01, 0x243185be, 0x550c7dc3, 0x72be5d74, 0x80deb1fe, 0x9bdc06a7, 0xc19bf174,
   0xe49b69c1, 0xefbe4786, 0x0fc19dc6, 0x240ca1cc, 0x2de92c6f, 0x4a7484aa, 0x5cb0a9dc, 0x76f988da,
   0x983e5152, 0xa831c66d, 0xb00327c8, 0xbf597fc7, 0xc6e00bf3, 0xd5a79147, 0x06ca6351, 0x14292967,
   0x27b70a85, 0x2e1b2138, 0x4d2c6dfc, 0x53380d13, 0x650a7354, 0x766a0abb, 0x81c2c92e, 0x92722c85,
   0xa2bfe8a1, 0xa81a664b, 0xc24b8b70, 0xc76c51a3, 0xd192e819, 0xd6990624, 0xf40e3585, 0x106aa070,
   0x19a4c116, 0x1e376c08, 0x2748774c, 0x34b0bcb5, 0x391c0cb3, 0x4ed8aa4a, 0x5b9cca4f, 0x682e6ff3,
   0x748f82ee, 0x78a5636f, 0x84c87814, 0x8cc70208, 0x90befffa, 0xa4506ceb, 0xbef9a3f7, 0xc67178f2]

/-- The eight working words. -/
structure Words where
  (a b c d e f g h : ℕ)

def initial : Words :=
  ⟨0x6a09e667, 0xbb67ae85, 0x3c6ef372, 0xa54ff53a, 0x510e527f, 0x9b05688c, 0x1f83d9ab, 0x5be0cd19⟩

/-- Reduce to 32 bits. -/
def word (n : ℕ) : ℕ := Nat.mod n 4294967296

/-- Rotate right. -/
def rotate (w n : ℕ) : ℕ :=
  Nat.lor (Nat.shiftRight w n) (word (Nat.shiftLeft w (Nat.sub 32 n)))

/-- Exclusive or of three words. -/
def xor₃ (a b c : ℕ) : ℕ := Nat.xor (Nat.xor a b) c

/-- Extend the message schedule, newest word first: the next word is made of the last one but one
(`x₂`), the seventh, the fifteenth and the sixteenth. -/
def extend : ℕ → List ℕ → List ℕ
  | n + 1, ws@(_ :: x₂ :: _ :: _ :: _ :: _ :: x₇ :: _ :: _ :: _ :: _ :: _ :: _ :: _ ::
    x₁₅ :: x₁₆ :: _) =>
    let s₀ := xor₃ (rotate x₁₅ 7) (rotate x₁₅ 18) (Nat.shiftRight x₁₅ 3)
    let s₁ := xor₃ (rotate x₂ 17) (rotate x₂ 19) (Nat.shiftRight x₂ 10)
    extend n (word (Nat.add (Nat.add x₁₆ s₀) (Nat.add x₇ s₁)) :: ws)
  | _, ws => ws

/-- The rounds of one block, over the constants and the schedule. -/
def rounds : List ℕ → List ℕ → (a b c d e f g h : ℕ) → Words
  | k :: ks, w :: ws, a, b, c, d, e, f, g, h =>
    let choice := Nat.xor (Nat.land e f) (Nat.land (Nat.xor 0xffffffff e) g)
    let majority := xor₃ (Nat.land a b) (Nat.land a c) (Nat.land b c)
    let t₁ := Nat.add (Nat.add h (xor₃ (rotate e 6) (rotate e 11) (rotate e 25)))
      (Nat.add choice (Nat.add k w))
    let t₂ := Nat.add (xor₃ (rotate a 2) (rotate a 13) (rotate a 22)) majority
    rounds ks ws (word (Nat.add t₁ t₂)) a b c (word (Nat.add d t₁)) e f g
  | _, _, a, b, c, d, e, f, g, h => ⟨a, b, c, d, e, f, g, h⟩

/-- One block of sixteen words. -/
def compress (block : List ℕ) : Words → Words
  | ⟨a, b, c, d, e, f, g, h⟩ =>
    match rounds roundConstants (extend 48 block.reverse).reverse a b c d e f g h with
    | ⟨a', b', c', d', e', f', g', h'⟩ =>
      ⟨word (Nat.add a a'), word (Nat.add b b'), word (Nat.add c c'), word (Nat.add d d'),
       word (Nat.add e e'), word (Nat.add f f'), word (Nat.add g g'), word (Nat.add h h')⟩

/-- All blocks. -/
def blocks : ℕ → List ℕ → Words → Words
  | 0, _, s => s
  | n + 1, ws, s => blocks n (ws.drop 16) (compress (ws.take 16) s)

/-- `k` bytes of a number, the most significant first. -/
def bigEndian : ℕ → ℕ → Bytes
  | 0, _ => []
  | k + 1, n => UInt8.ofNat (n >>> (8 * k)) :: bigEndian k n

/-- Four bytes a word. -/
def toWords : Bytes → List ℕ
  | x :: y :: z :: t :: rest =>
    (((x.toNat * 256 + y.toNat) * 256 + z.toNat) * 256 + t.toNat) :: toWords rest
  | _ => []

/-- The message with its padding: a one bit, zeros, and the length in bits. -/
def pad (m : Bytes) : Bytes :=
  m ++ 0x80 :: List.replicate ((119 - m.length % 64) % 64) 0 ++ bigEndian 8 (8 * m.length)

def sha256 (m : Bytes) : Bytes :=
  let padded := pad m
  let s := blocks (padded.length / 64) (toWords padded) initial
  bigEndian 4 s.a ++ bigEndian 4 s.b ++ bigEndian 4 s.c ++ bigEndian 4 s.d ++
    bigEndian 4 s.e ++ bigEndian 4 s.f ++ bigEndian 4 s.g ++ bigEndian 4 s.h

@[simp] theorem length_bigEndian (k n : ℕ) : (bigEndian k n).length = k := by
  induction k with
  | zero => rfl
  | succ k ih => simp [bigEndian, ih]

/-- A digest has 32 bytes. -/
theorem length_sha256 (m : Bytes) : (sha256 m).length = 32 := by
  simp [sha256]

/-- The digest of `abc`. -/
example : sha256 [97, 98, 99] = bigEndian 32
    0xba7816bf8f01cfea414140de5dae2223b00361a396177a9cb410ff61f20015ad := by
  decide +kernel

end DecentRegistry.Sha256
