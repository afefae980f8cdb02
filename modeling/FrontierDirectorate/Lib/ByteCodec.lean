import Mathlib

/-!
# Fixed-width byte codecs

A codec here is a pair of functions between a type and byte strings of one
width which are inverse to each other in both directions, also when more bytes
follow. Records are read at offsets and written field after field; the slice
lemmas below are what turns one form into the other.
-/
namespace ByteCodec

variable {α β : Type*}

/-- The `n` bytes of `p` that start at offset `k`. -/
def slice (p : List UInt8) (k n : Nat) : List UInt8 := (p.drop k).take n

theorem slice_zero (p : List UInt8) (n : Nat) : slice p 0 n = p.take n := rfl

theorem slice_all {p : List UInt8} {n : Nat} (h : p.length = n) : slice p 0 n = p := by
  rw [slice_zero, List.take_of_length_le h.le]

@[simp] theorem slice_length (p : List UInt8) (k n : Nat) :
    (slice p k n).length = min n (p.length - k) := by
  simp only [slice, List.length_take, List.length_drop]

/-- Adjacent slices join. -/
theorem slice_append_slice (p : List UInt8) {k a m b : Nat} (h : m = k + a) :
    slice p k a ++ slice p m b = slice p k (a + b) := by
  subst h
  simp only [slice, List.take_add, List.drop_drop]

theorem slice_append_rest (p : List UInt8) (k : Nat) : slice p 0 k ++ p.drop k = p := by
  rw [slice_zero, List.take_append_drop]

/-- Reading past a known prefix. -/
theorem drop_skip {a b : List UInt8} {k : Nat} (h : a.length ≤ k) :
    (a ++ b).drop k = b.drop (k - a.length) := by
  rw [List.drop_append, List.drop_eq_nil_of_le h, List.nil_append]

/-- A codec of one width, lossless in both directions. -/
structure Codec (α : Type*) where
  width : Nat
  encode : α → List UInt8
  decode : List UInt8 → α
  encode_length : ∀ a, (encode a).length = width
  decode_encode : ∀ a rest, decode (encode a ++ rest) = a
  encode_decode : ∀ p, width ≤ p.length → encode (decode p) = p.take width

namespace Codec

theorem decode_encode_self (c : Codec α) (a : α) : c.decode (c.encode a) = a := by
  simpa only [List.append_nil] using c.decode_encode a []

theorem encode_injective (c : Codec α) : Function.Injective c.encode := by
  intro a b h
  rw [← c.decode_encode_self a, h, c.decode_encode_self]

/-- Equal streams that both start with an encoded value carry the same value and the same rest. -/
theorem encode_append_inj (c : Codec α) {a b : α} {s t : List UInt8} :
    c.encode a ++ s = c.encode b ++ t ↔ a = b ∧ s = t := by
  constructor
  · intro h
    have hlen : (c.encode a).length = (c.encode b).length := by
      rw [c.encode_length, c.encode_length]
    obtain ⟨hab, hst⟩ := List.append_inj h hlen
    exact ⟨c.encode_injective hab, hst⟩
  · rintro ⟨rfl, rfl⟩
    rfl

theorem encode_decode_drop (c : Codec α) (p : List UInt8) (k : Nat)
    (h : k + c.width ≤ p.length) : c.encode (c.decode (p.drop k)) = slice p k c.width := by
  apply c.encode_decode
  rw [List.length_drop]
  omega

/-- Entries written one after another. -/
def encodeAll (c : Codec α) (xs : List α) : List UInt8 := xs.flatMap c.encode

/-- `n` entries read at consecutive multiples of the width. -/
def decodeAll (c : Codec α) : Nat → List UInt8 → List α
  | 0, _ => []
  | n + 1, p => c.decode p :: decodeAll c n (p.drop c.width)

@[simp] theorem encodeAll_nil (c : Codec α) : c.encodeAll [] = [] := rfl

@[simp] theorem encodeAll_cons (c : Codec α) (x : α) (xs : List α) :
    c.encodeAll (x :: xs) = c.encode x ++ c.encodeAll xs := rfl

@[simp] theorem encodeAll_length (c : Codec α) (xs : List α) :
    (c.encodeAll xs).length = xs.length * c.width := by
  induction xs with
  | nil => simp
  | cons x xs ih => simp [ih, c.encode_length, Nat.succ_mul, Nat.add_comm]

@[simp] theorem decodeAll_length (c : Codec α) (n : Nat) (p : List UInt8) :
    (c.decodeAll n p).length = n := by
  induction n generalizing p with
  | zero => rfl
  | succ n ih => simp [decodeAll, ih]

theorem decodeAll_encodeAll (c : Codec α) (xs : List α) (rest : List UInt8) :
    c.decodeAll xs.length (c.encodeAll xs ++ rest) = xs := by
  induction xs with
  | nil => rfl
  | cons x xs ih =>
      have hdrop : (c.encode x ++ (c.encodeAll xs ++ rest)).drop c.width =
          c.encodeAll xs ++ rest := by
        rw [← c.encode_length x, List.drop_left]
      simp only [List.length_cons, decodeAll, encodeAll_cons, List.append_assoc,
        c.decode_encode, hdrop, ih]

theorem encodeAll_decodeAll (c : Codec α) (n : Nat) (p : List UInt8)
    (h : n * c.width ≤ p.length) : c.encodeAll (c.decodeAll n p) = p.take (n * c.width) := by
  induction n generalizing p with
  | zero => simp [decodeAll]
  | succ n ih =>
      have hle : c.width ≤ p.length := by
        refine le_trans ?_ h
        simpa only [Nat.one_mul] using Nat.mul_le_mul_right c.width (Nat.le_add_left 1 n)
      have hrest : n * c.width ≤ (p.drop c.width).length := by
        rw [List.length_drop]
        rw [Nat.succ_mul] at h
        omega
      rw [decodeAll, encodeAll_cons, c.encode_decode p hle, ih _ hrest, Nat.succ_mul,
        Nat.add_comm (n * c.width), List.take_add]

theorem encodeAll_append_inj (c : Codec α) {xs ys : List α} {s t : List UInt8}
    (hlen : xs.length = ys.length) :
    c.encodeAll xs ++ s = c.encodeAll ys ++ t ↔ xs = ys ∧ s = t := by
  constructor
  · intro h
    have hx := c.decodeAll_encodeAll xs s
    rw [h, hlen, c.decodeAll_encodeAll] at hx
    subst hx
    exact ⟨rfl, List.append_cancel_left h⟩
  · rintro ⟨rfl, rfl⟩
    rfl

end Codec

section arrays

variable {n : Nat}

/-- The first `n` bytes as a fixed array, zero-filled where the input is short. -/
def bytesOf (n : Nat) (p : List UInt8) : List.Vector UInt8 n := ⟨p.takeD n 0, List.takeD_length n p 0⟩

theorem toList_bytesOf {p : List UInt8} (h : n ≤ p.length) : (bytesOf n p).toList = p.take n :=
  List.takeD_eq_take _ h

theorem bytesOf_append (v : List.Vector UInt8 n) (rest : List UInt8) :
    bytesOf n (v.toList ++ rest) = v := by
  apply List.Vector.eq
  rw [toList_bytesOf (by simp)]
  simp

/-- Fixed byte arrays are their own codec. -/
def fixed (n : Nat) : Codec (List.Vector UInt8 n) where
  width := n
  encode v := v.toList
  decode := bytesOf n
  encode_length v := v.toList_length
  decode_encode := bytesOf_append
  encode_decode _ h := toList_bytesOf h

/-- An array of `n` entries, one after another. -/
def Codec.vector (c : Codec α) (n : Nat) : Codec (List.Vector α n) where
  width := n * c.width
  encode v := c.encodeAll v.toList
  decode p := ⟨c.decodeAll n p, c.decodeAll_length n p⟩
  encode_length v := by rw [c.encodeAll_length, v.toList_length]
  decode_encode v rest := by
    apply List.Vector.eq
    have h := c.decodeAll_encodeAll v.toList rest
    rw [v.toList_length] at h
    exact h
  encode_decode p h := c.encodeAll_decodeAll n p h

end arrays

end ByteCodec
