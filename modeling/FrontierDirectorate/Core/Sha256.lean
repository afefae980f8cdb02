import Mathlib
import FrontierDirectorate.Core.Types
import FrontierDirectorate.Core.Endian

/-!
# SHA-256

`fd_sha256.c`: the compression function, the streaming context and the one-shot
digest. A context keeps fewer than 64 buffered bytes, so the update loop always
has room to make progress.
-/
namespace FrontierDirectorate
open ByteCodec

def fdRotr32 (value count : UInt32) : UInt32 := (value >>> count) ||| (value <<< (32 - count))

structure Sha256State where
  a : UInt32
  b : UInt32
  c : UInt32
  d : UInt32
  e : UInt32
  f : UInt32
  g : UInt32
  h : UInt32
deriving DecidableEq, Repr

def sha256Constants : List UInt32 := [
  0x428a2f98, 0x71374491, 0xb5c0fbcf, 0xe9b5dba5, 0x3956c25b, 0x59f111f1, 0x923f82a4, 0xab1c5ed5,
  0xd807aa98, 0x12835b01, 0x243185be, 0x550c7dc3, 0x72be5d74, 0x80deb1fe, 0x9bdc06a7, 0xc19bf174,
  0xe49b69c1, 0xefbe4786, 0x0fc19dc6, 0x240ca1cc, 0x2de92c6f, 0x4a7484aa, 0x5cb0a9dc, 0x76f988da,
  0x983e5152, 0xa831c66d, 0xb00327c8, 0xbf597fc7, 0xc6e00bf3, 0xd5a79147, 0x06ca6351, 0x14292967,
  0x27b70a85, 0x2e1b2138, 0x4d2c6dfc, 0x53380d13, 0x650a7354, 0x766a0abb, 0x81c2c92e, 0x92722c85,
  0xa2bfe8a1, 0xa81a664b, 0xc24b8b70, 0xc76c51a3, 0xd192e819, 0xd6990624, 0xf40e3585, 0x106aa070,
  0x19a4c116, 0x1e376c08, 0x2748774c, 0x34b0bcb5, 0x391c0cb3, 0x4ed8aa4a, 0x5b9cca4f, 0x682e6ff3,
  0x748f82ee, 0x78a5636f, 0x84c87814, 0x8cc70208, 0x90befffa, 0xa4506ceb, 0xbef9a3f7, 0xc67178f2]

/-- Word `index` of a block, most significant byte first. -/
def blockWord (block : List UInt8) (index : Nat) : UInt32 :=
  let offset := index * 4
  ((byteAt block offset).toUInt32 <<< 24) ||| ((byteAt block (offset + 1)).toUInt32 <<< 16) |||
    ((byteAt block (offset + 2)).toUInt32 <<< 8) ||| (byteAt block (offset + 3)).toUInt32

/-- One entry of the message schedule from the entries before it. -/
def scheduleStep (words : Array UInt32) (index : Nat) : Array UInt32 :=
  let x := words.getD (index - 15) 0
  let y := words.getD (index - 2) 0
  let s0 := fdRotr32 x 7 ^^^ fdRotr32 x 18 ^^^ (x >>> 3)
  let s1 := fdRotr32 y 17 ^^^ fdRotr32 y 19 ^^^ (y >>> 10)
  words.push (words.getD (index - 16) 0 + s0 + words.getD (index - 7) 0 + s1)

def messageSchedule (block : List UInt8) : Array UInt32 :=
  (List.range' 16 48).foldl scheduleStep ((List.range 16).map (blockWord block)).toArray

def compressRound (words : Array UInt32) (s : Sha256State) (index : Nat) : Sha256State :=
  let sum1 := fdRotr32 s.e 6 ^^^ fdRotr32 s.e 11 ^^^ fdRotr32 s.e 25
  let choice := (s.e &&& s.f) ^^^ ((~~~s.e) &&& s.g)
  let temp1 := s.h + sum1 + choice + sha256Constants.getD index 0 + words.getD index 0
  let sum0 := fdRotr32 s.a 2 ^^^ fdRotr32 s.a 13 ^^^ fdRotr32 s.a 22
  let majority := (s.a &&& s.b) ^^^ (s.a &&& s.c) ^^^ (s.b &&& s.c)
  let temp2 := sum0 + majority
  { a := temp1 + temp2, b := s.a, c := s.b, d := s.c,
    e := s.d + temp1, f := s.e, g := s.f, h := s.g }

def fdSha256Compress (state : Sha256State) (block : List UInt8) : Sha256State :=
  let s := (List.range 64).foldl (compressRound (messageSchedule block)) state
  { a := state.a + s.a, b := state.b + s.b, c := state.c + s.c, d := state.d + s.d,
    e := state.e + s.e, f := state.f + s.f, g := state.g + s.g, h := state.h + s.h }

/-- The streaming context; `block_size` is the length of `block`. -/
structure Sha256Ctx where
  state : Sha256State
  totalSize : UInt64
  block : List UInt8
  block_lt : block.length < 64

def fdSha256Init : Sha256Ctx where
  state := ⟨0x6a09e667, 0xbb67ae85, 0x3c6ef372, 0xa54ff53a,
    0x510e527f, 0x9b05688c, 0x1f83d9ab, 0x5be0cd19⟩
  totalSize := 0
  block := []
  block_lt := by decide

/-- Append one chunk to the buffered block and compress when it is full. -/
def Sha256Ctx.absorb (ctx : Sha256Ctx) (chunk : List UInt8) : Sha256Ctx :=
  if h : (ctx.block ++ chunk).length < 64 then
    { ctx with block := ctx.block ++ chunk, block_lt := h }
  else
    { ctx with
      state := fdSha256Compress ctx.state (ctx.block ++ chunk)
      block := []
      block_lt := by decide }

def Sha256Ctx.absorbLoop (ctx : Sha256Ctx) (input : List UInt8) : Sha256Ctx :=
  if input = [] then ctx
  else
    let take := min input.length (64 - ctx.block.length)
    absorbLoop (ctx.absorb (input.take take)) (input.drop take)
termination_by input.length
decreasing_by
  have := ctx.block_lt
  have : input.length ≠ 0 := by simpa only [ne_eq, List.length_eq_zero_iff]
  simp only [List.length_drop]
  omega

def fdSha256Update (ctx : Sha256Ctx) (bytes : List UInt8) : Sha256Ctx :=
  { ctx with totalSize := ctx.totalSize + UInt64.ofNat bytes.length }.absorbLoop bytes

/-- A word of the digest, most significant byte first. -/
def wordBytes (word : UInt32) : List UInt8 :=
  [(word >>> 24).toUInt8, (word >>> 16).toUInt8, (word >>> 8).toUInt8, word.toUInt8]

def bitSizeBytes (bitSize : UInt64) : List UInt8 :=
  [(bitSize >>> 56).toUInt8, (bitSize >>> 48).toUInt8, (bitSize >>> 40).toUInt8,
   (bitSize >>> 32).toUInt8, (bitSize >>> 24).toUInt8, (bitSize >>> 16).toUInt8,
   (bitSize >>> 8).toUInt8, bitSize.toUInt8]

def Sha256State.digest (s : Sha256State) : Digest :=
  ⟨wordBytes s.a ++ wordBytes s.b ++ wordBytes s.c ++ wordBytes s.d ++
    wordBytes s.e ++ wordBytes s.f ++ wordBytes s.g ++ wordBytes s.h, rfl⟩

def fdSha256Final (ctx : Sha256Ctx) : Digest :=
  let bitSize := ctx.totalSize * 8
  let block := ctx.block ++ [0x80]
  -- no room for the length: the padding spills into a block of its own
  let (state, block) :=
    if 56 < block.length then
      (fdSha256Compress ctx.state (block ++ List.replicate (64 - block.length) 0), [])
    else (ctx.state, block)
  let block := block ++ List.replicate (56 - block.length) 0 ++ bitSizeBytes bitSize
  (fdSha256Compress state block).digest

def fdSha256 (bytes : List UInt8) : Digest :=
  if bytes = [] then fdSha256Final fdSha256Init
  else fdSha256Final (fdSha256Update fdSha256Init bytes)

/-- The digest of pieces fed to the context one after another. -/
def sha256Pieces (pieces : List (List UInt8)) : Digest :=
  fdSha256Final (pieces.foldl fdSha256Update fdSha256Init)

/-! The context is a function of the bytes it has seen: how they were cut does not matter. -/

namespace Sha256Ctx

def absorbByte (ctx : Sha256Ctx) (b : UInt8) : Sha256Ctx := ctx.absorb [b]

theorem absorb_nil (ctx : Sha256Ctx) : ctx.absorb [] = ctx := by
  have h : (ctx.block ++ []).length < 64 := by simpa using ctx.block_lt
  rw [absorb, dif_pos h]
  simp

theorem absorb_eq_foldl (ctx : Sha256Ctx) (chunk : List UInt8)
    (h : ctx.block.length + chunk.length ≤ 64) : ctx.absorb chunk = chunk.foldl absorbByte ctx := by
  induction chunk generalizing ctx with
  | nil => exact ctx.absorb_nil
  | cons b rest ih =>
      cases rest with
      | nil => rfl
      | cons c rest =>
          simp only [List.length_cons] at h
          have hb : (ctx.block ++ [b]).length < 64 := by
            rw [List.length_append, List.length_singleton]
            omega
          have hfirst : ctx.absorbByte b =
              { ctx with block := ctx.block ++ [b], block_lt := hb } := by
            rw [absorbByte, absorb, dif_pos hb]
          have hcut : ctx.absorb (b :: c :: rest) = (ctx.absorbByte b).absorb (c :: rest) := by
            rw [hfirst]
            simp only [absorb, List.append_assoc, List.cons_append, List.nil_append]
          rw [hcut, List.foldl_cons]
          apply ih
          rw [hfirst]
          simp only [List.length_append, List.length_cons, List.length_nil]
          omega

theorem absorbLoop_eq_foldl (ctx : Sha256Ctx) (input : List UInt8) :
    ctx.absorbLoop input = input.foldl absorbByte ctx := by
  induction hn : input.length using Nat.strong_induction_on generalizing ctx input with
  | _ n ih =>
      by_cases hnil : input = []
      · rw [absorbLoop, if_pos hnil, hnil, List.foldl_nil]
      · have hpos : 0 < input.length := List.length_pos_iff.mpr hnil
        have hroom := ctx.block_lt
        rw [absorbLoop, if_neg hnil]
        rw [ih _ (by rw [List.length_drop, ← hn]; omega) _ _ rfl]
        rw [absorb_eq_foldl _ _ (by rw [List.length_take]; omega)]
        rw [← List.foldl_append, List.take_append_drop]

theorem absorbByte_total (ctx : Sha256Ctx) (b : UInt8) (total : UInt64) :
    absorbByte { ctx with totalSize := total } b =
      { ctx.absorbByte b with totalSize := total } := by
  simp only [absorbByte, absorb]
  split <;> rfl

theorem foldl_absorbByte_total (ctx : Sha256Ctx) (input : List UInt8) (total : UInt64) :
    input.foldl absorbByte { ctx with totalSize := total } =
      { input.foldl absorbByte ctx with totalSize := total } := by
  induction input generalizing ctx with
  | nil => rfl
  | cons b input ih => simp only [List.foldl_cons, absorbByte_total, ih]

end Sha256Ctx

theorem fdSha256Update_eq (ctx : Sha256Ctx) (bytes : List UInt8) :
    fdSha256Update ctx bytes =
      { bytes.foldl Sha256Ctx.absorbByte ctx with
        totalSize := ctx.totalSize + UInt64.ofNat bytes.length } := by
  rw [fdSha256Update, Sha256Ctx.absorbLoop_eq_foldl, Sha256Ctx.foldl_absorbByte_total]

theorem fdSha256Update_append (ctx : Sha256Ctx) (x y : List UInt8) :
    fdSha256Update (fdSha256Update ctx x) y = fdSha256Update ctx (x ++ y) := by
  simp only [fdSha256Update_eq, Sha256Ctx.foldl_absorbByte_total, List.foldl_append,
    List.length_append, UInt64.ofNat_add, UInt64.add_assoc]

theorem fdSha256Update_nil (ctx : Sha256Ctx) : fdSha256Update ctx [] = ctx := by
  rw [fdSha256Update_eq]
  simp

/-- Piecewise hashing only sees the concatenated stream. -/
theorem sha256Pieces_eq_flatten (pieces : List (List UInt8)) :
    sha256Pieces pieces = fdSha256 pieces.flatten := by
  have hfold : ∀ ctx, pieces.foldl fdSha256Update ctx = fdSha256Update ctx pieces.flatten := by
    induction pieces with
    | nil =>
        intro ctx
        exact (fdSha256Update_nil ctx).symm
    | cons piece pieces ih =>
        intro ctx
        rw [List.foldl_cons, ih, fdSha256Update_append, List.flatten_cons]
  rw [sha256Pieces, hfold, fdSha256]
  split
  · next hnil => rw [hnil, fdSha256Update_nil]
  · rfl

-- from here on the digest is an unknown function with 32-byte values
attribute [irreducible] fdSha256 sha256Pieces

end FrontierDirectorate
