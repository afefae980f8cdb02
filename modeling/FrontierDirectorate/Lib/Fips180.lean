import Mathlib

/-!
# SHA-256 as FIPS 180-4 has it

The hash of a bit string: padding to whole 512-bit blocks, the message schedule as
a recurrence, and 64 rounds a block on 32-bit words. Nothing here is meant to run.
-/
namespace Fips180

abbrev Word := BitVec 32

/-- A number as a big-endian bit string of the given width. -/
def bitsOf (width n : Nat) : List Bool := (List.range width).map fun i => n.testBit (width - 1 - i)

/-- The number a big-endian bit string stands for. -/
def valueOf (bits : List Bool) : Nat := bits.foldl (fun n bit => 2 * n + bit.toNat) 0

section bits

theorem bitsOf_length (width n : Nat) : (bitsOf width n).length = width := by
  rw [bitsOf, List.length_map, List.length_range]

/-- The high digits and the low ones. -/
theorem bitsOf_add (high low n : Nat) :
    bitsOf (high + low) n = bitsOf high (n / 2 ^ low) ++ bitsOf low n := by
  refine List.ext_getElem? fun i => ?_
  rw [List.getElem?_append, bitsOf_length]
  simp only [bitsOf, List.getElem?_map]
  by_cases hhigh : i < high
  · rw [if_pos hhigh, List.getElem?_range (by omega), List.getElem?_range hhigh]
    simp only [Option.map_some, Nat.testBit_div_two_pow]
    rw [show high - 1 - i + low = high + low - 1 - i by omega]
  · rw [if_neg hhigh]
    by_cases hlow : i < high + low
    · rw [List.getElem?_range hlow, List.getElem?_range (by omega)]
      simp only [Option.map_some]
      rw [show low - 1 - (i - high) = high + low - 1 - i by omega]
    · rw [List.getElem?_eq_none (by rw [List.length_range]; omega),
        List.getElem?_eq_none (by rw [List.length_range]; omega)]
      rfl

theorem bitsOf_mod (width n : Nat) : bitsOf width (n % 2 ^ width) = bitsOf width n := by
  refine List.map_congr_left fun i hi => ?_
  rw [List.mem_range] at hi
  rw [Nat.testBit_mod_two_pow, decide_eq_true (by omega), Bool.true_and]

theorem valueOf_append (high low : List Bool) :
    valueOf (high ++ low) = valueOf high * 2 ^ low.length + valueOf low := by
  have hfold : ∀ (bits : List Bool) n, bits.foldl (fun n bit => 2 * n + bit.toNat) n =
      n * 2 ^ bits.length + valueOf bits := by
    intro bits
    induction bits with
    | nil =>
        intro n
        simp [valueOf]
    | cons bit bits ih =>
        intro n
        rw [valueOf, List.foldl_cons, List.foldl_cons, ih, ih, List.length_cons, Nat.pow_succ]
        ring
  rw [valueOf, List.foldl_append, hfold]
  rfl

/-- A number read back from its digits. -/
theorem valueOf_bitsOf (width n : Nat) : valueOf (bitsOf width n) = n % 2 ^ width := by
  induction width generalizing n with
  | zero => simp [bitsOf, valueOf, Nat.mod_one]
  | succ width ih =>
      have hlow : valueOf (bitsOf 1 n) = n % 2 := by
        have hbit : bitsOf 1 n = [n.testBit 0] := rfl
        rw [hbit, Nat.testBit_zero]
        rcases Nat.mod_two_eq_zero_or_one n with h | h <;> rw [h] <;> rfl
      have hsplit : n % 2 ^ (width + 1) = n % 2 + 2 * (n / 2 % 2 ^ width) := by
        rw [Nat.pow_succ', Nat.mod_mul]
      rw [bitsOf_add width 1, valueOf_append, ih, bitsOf_length, hlow, hsplit, Nat.pow_one]
      omega

end bits

section bytes

/-- A byte, most significant bit first. -/
def byteBits (b : UInt8) : List Bool := bitsOf 8 b.toNat

/-- A byte string as a bit string. -/
def bytesBits (bytes : List UInt8) : List Bool := bytes.flatMap byteBits

theorem byteBits_length (b : UInt8) : (byteBits b).length = 8 := bitsOf_length 8 b.toNat

theorem bytesBits_append (x y : List UInt8) : bytesBits (x ++ y) = bytesBits x ++ bytesBits y :=
  List.flatMap_append

theorem bytesBits_length (bytes : List UInt8) : (bytesBits bytes).length = 8 * bytes.length := by
  induction bytes with
  | nil => rfl
  | cons b bytes ih =>
      rw [bytesBits, List.flatMap_cons, List.length_append, byteBits_length, List.length_cons]
      rw [bytesBits] at ih
      omega

theorem bytesBits_drop (bytes : List UInt8) (n : Nat) :
    (bytesBits bytes).drop (8 * n) = bytesBits (bytes.drop n) := by
  rcases Nat.le_total n bytes.length with hle | hge
  · have hlength : (bytesBits (bytes.take n)).length = 8 * n := by
      rw [bytesBits_length, List.length_take, Nat.min_eq_left hle]
    conv_lhs => rw [← List.take_append_drop n bytes, bytesBits_append]
    exact List.drop_left' hlength
  · rw [List.drop_eq_nil_of_le hge, List.drop_eq_nil_of_le (by rw [bytesBits_length]; omega)]
    rfl

theorem bytesBits_take (bytes : List UInt8) (n : Nat) :
    (bytesBits bytes).take (8 * n) = bytesBits (bytes.take n) := by
  rcases Nat.le_total n bytes.length with hle | hge
  · have hlength : (bytesBits (bytes.take n)).length = 8 * n := by
      rw [bytesBits_length, List.length_take, Nat.min_eq_left hle]
    conv_lhs => rw [← List.take_append_drop n bytes, bytesBits_append]
    exact List.take_left' hlength
  · rw [List.take_of_length_le hge, List.take_of_length_le (by rw [bytesBits_length]; omega)]

/-- The number a byte string stands for, most significant byte first. -/
theorem valueOf_bytesBits (bytes : List UInt8) :
    valueOf (bytesBits bytes) = bytes.foldl (fun n b => n * 256 + b.toNat) 0 := by
  induction bytes using List.reverseRecOn with
  | nil => rfl
  | append_singleton bytes b ih =>
      have hbyte : valueOf (bytesBits [b]) = b.toNat := by
        rw [bytesBits, List.flatMap_cons, List.flatMap_nil, List.append_nil, byteBits,
          valueOf_bitsOf]
        exact Nat.mod_eq_of_lt b.toNat_lt
      rw [bytesBits_append, valueOf_append, hbyte, bytesBits_length, ih, List.foldl_append]
      rfl

end bytes

section functions

def ch (x y z : Word) : Word := (x &&& y) ^^^ (~~~x &&& z)
def maj (x y z : Word) : Word := (x &&& y) ^^^ (x &&& z) ^^^ (y &&& z)
def sum0 (x : Word) : Word := x.rotateRight 2 ^^^ x.rotateRight 13 ^^^ x.rotateRight 22
def sum1 (x : Word) : Word := x.rotateRight 6 ^^^ x.rotateRight 11 ^^^ x.rotateRight 25
def sigma0 (x : Word) : Word := x.rotateRight 7 ^^^ x.rotateRight 18 ^^^ (x >>> 3)
def sigma1 (x : Word) : Word := x.rotateRight 17 ^^^ x.rotateRight 19 ^^^ (x >>> 10)

/-- The first 32 bits of the fractional parts of the cube roots of the first 64 primes. -/
def constants : List Word := [
  0x428a2f98, 0x71374491, 0xb5c0fbcf, 0xe9b5dba5, 0x3956c25b, 0x59f111f1, 0x923f82a4, 0xab1c5ed5,
  0xd807aa98, 0x12835b01, 0x243185be, 0x550c7dc3, 0x72be5d74, 0x80deb1fe, 0x9bdc06a7, 0xc19bf174,
  0xe49b69c1, 0xefbe4786, 0x0fc19dc6, 0x240ca1cc, 0x2de92c6f, 0x4a7484aa, 0x5cb0a9dc, 0x76f988da,
  0x983e5152, 0xa831c66d, 0xb00327c8, 0xbf597fc7, 0xc6e00bf3, 0xd5a79147, 0x06ca6351, 0x14292967,
  0x27b70a85, 0x2e1b2138, 0x4d2c6dfc, 0x53380d13, 0x650a7354, 0x766a0abb, 0x81c2c92e, 0x92722c85,
  0xa2bfe8a1, 0xa81a664b, 0xc24b8b70, 0xc76c51a3, 0xd192e819, 0xd6990624, 0xf40e3585, 0x106aa070,
  0x19a4c116, 0x1e376c08, 0x2748774c, 0x34b0bcb5, 0x391c0cb3, 0x4ed8aa4a, 0x5b9cca4f, 0x682e6ff3,
  0x748f82ee, 0x78a5636f, 0x84c87814, 0x8cc70208, 0x90befffa, 0xa4506ceb, 0xbef9a3f7, 0xc67178f2]

end functions

section padding

/-- The message, a one, as few zeros as reach 448 modulo 512, and the length in 64 bits. -/
def pad (message : List Bool) : List Bool :=
  message ++ true :: (List.replicate ((959 - message.length % 512) % 512) false ++
    bitsOf 64 message.length)

end padding

section hash

/-- The eight working variables, and also an intermediate hash value. -/
@[ext] structure Working where
  a : Word
  b : Word
  c : Word
  d : Word
  e : Word
  f : Word
  g : Word
  h : Word

def Working.add (v w : Working) : Working :=
  ⟨v.a + w.a, v.b + w.b, v.c + w.c, v.d + w.d, v.e + w.e, v.f + w.f, v.g + w.g, v.h + w.h⟩

/-- The first 32 bits of the fractional parts of the square roots of the first eight primes. -/
def initial : Working :=
  ⟨0x6a09e667, 0xbb67ae85, 0x3c6ef372, 0xa54ff53a, 0x510e527f, 0x9b05688c, 0x1f83d9ab, 0x5be0cd19⟩

/-- The message schedule of a block. -/
def schedule (block : Nat → Word) (t : Nat) : Word :=
  if t < 16 then block t
  else sigma1 (schedule block (t - 2)) + schedule block (t - 7) + sigma0 (schedule block (t - 15)) +
    schedule block (t - 16)
termination_by t

def hashRound (w : Nat → Word) (v : Working) (t : Nat) : Working :=
  let t1 := v.h + sum1 v.e + ch v.e v.f v.g + constants.getD t 0 + w t
  let t2 := sum0 v.a + maj v.a v.b v.c
  ⟨t1 + t2, v.a, v.b, v.c, v.d + t1, v.e, v.f, v.g⟩

/-- One block worked into the intermediate hash value. -/
def compress (value : Working) (block : Nat → Word) : Working :=
  ((List.range 64).foldl (hashRound (schedule block)) value).add value

/-- A schedule depends on the sixteen words of its block only. -/
theorem schedule_congr {f g : Nat → Word} (h : ∀ t < 16, f t = g t) (t : Nat) :
    schedule f t = schedule g t := by
  induction t using Nat.strong_induction_on with
  | _ t ih =>
      rw [schedule.eq_def f t, schedule.eq_def g t]
      split
      · next ht => exact h t ht
      · next ht =>
          rw [ih (t - 2) (by omega), ih (t - 7) (by omega), ih (t - 15) (by omega),
            ih (t - 16) (by omega)]

theorem compress_congr {f g : Nat → Word} (h : ∀ t < 16, f t = g t) (value : Working) :
    compress value f = compress value g := by
  rw [compress, compress, funext (schedule_congr h)]

/-- Word `t` of block `i` of a padded message. -/
def blockWord (bits : List Bool) (i t : Nat) : Word :=
  BitVec.ofNat 32 (valueOf ((bits.drop (512 * i + 32 * t)).take 32))

def Working.bits (v : Working) : List Bool :=
  [v.a, v.b, v.c, v.d, v.e, v.f, v.g, v.h].flatMap fun word => bitsOf 32 word.toNat

/-- The digest of a bit string. -/
def sha256 (message : List Bool) : List Bool :=
  let bits := pad message
  ((List.range (bits.length / 512)).foldl (fun value i => compress value (blockWord bits i))
    initial).bits

end hash

end Fips180
