import Mathlib
import FrontierDirectorate.Core.Sha256

/-!
# The hash context in memory

`fd_sha256_ctx_internal` with its 64-byte block, of which only the first
`block_size` bytes mean anything: what a context of bytes does, the one in memory
does, whatever old bytes the block still holds.
-/
namespace FrontierDirectorate

abbrev Block := List.Vector UInt8 64

/-- `memcpy` and `memset` into the block. -/
def Block.write (block : Block) (offset : Nat) (bytes : List UInt8) : Block :=
  List.Vector.ofFn fun i =>
    if offset ≤ i ∧ i < offset + bytes.length then bytes.getD (i - offset) 0 else block.get i

structure Sha256Memory where
  state : Sha256State
  totalSize : UInt64
  blockSize : Nat
  block : Block
  room : blockSize < 64

def fdSha256InitInternal : Sha256Memory where
  state := fdSha256Init.state
  totalSize := 0
  blockSize := 0
  block := List.Vector.replicate 64 0
  room := by decide

/-- One turn of the update loop. -/
def Sha256Memory.absorb (ctx : Sha256Memory) (chunk : List UInt8) : Sha256Memory :=
  let block := ctx.block.write ctx.blockSize chunk
  if h : ctx.blockSize + chunk.length < 64 then
    { ctx with block := block, blockSize := ctx.blockSize + chunk.length, room := h }
  else
    { ctx with
      state := fdSha256Compress ctx.state block.toList
      block := block
      blockSize := 0
      room := by decide }

def Sha256Memory.absorbLoop (ctx : Sha256Memory) (input : List UInt8) : Sha256Memory :=
  if input = [] then ctx
  else
    let take := min input.length (64 - ctx.blockSize)
    absorbLoop (ctx.absorb (input.take take)) (input.drop take)
termination_by input.length
decreasing_by
  have := ctx.room
  have : input.length ≠ 0 := by simpa only [ne_eq, List.length_eq_zero_iff]
  simp only [List.length_drop]
  omega

def fdSha256UpdateInternal (ctx : Sha256Memory) (bytes : List UInt8) : Sha256Memory :=
  { ctx with totalSize := ctx.totalSize + UInt64.ofNat bytes.length }.absorbLoop bytes

def fdSha256FinalInternal (ctx : Sha256Memory) : Digest :=
  let bitSize := ctx.totalSize * 8
  let block := ctx.block.write ctx.blockSize [0x80]
  let size := ctx.blockSize + 1
  -- no room for the length: the padding spills into a block of its own
  let (state, block, size) :=
    if 56 < size then
      let block := block.write size (List.replicate (64 - size) 0)
      (fdSha256Compress ctx.state block.toList, block, 0)
    else (ctx.state, block, size)
  let block := block.write size (List.replicate (56 - size) 0)
  let block := block.write 56 (bitSizeBytes bitSize)
  (fdSha256Compress state block.toList).digest

section write

variable (block : Block) (offset : Nat) (bytes : List UInt8)

theorem Block.length (block : Block) : block.toList.length = 64 := block.toList_length

theorem Block.getElem?_write (i : Nat) : (block.write offset bytes).toList[i]? =
    if offset ≤ i ∧ i < offset + bytes.length ∧ i < 64 then bytes[i - offset]?
    else block.toList[i]? := by
  rw [Block.write, List.Vector.toList_ofFn, List.getElem?_ofFn]
  by_cases hi : i < 64
  · rw [dif_pos hi]
    simp only [hi, and_true]
    split
    · next h =>
        have hinside : i - offset < bytes.length := by omega
        rw [List.getD_eq_getElem?_getD, List.getElem?_eq_getElem hinside, Option.getD_some]
    · rw [List.Vector.get_eq_get_toList, List.get_eq_getElem,
        List.getElem?_eq_getElem (by rw [block.length]; exact hi)]
      rfl
  · rw [dif_neg hi, if_neg (by omega), List.getElem?_eq_none (by rw [block.length]; omega)]

/-- The front of the block up to the end of a write. -/
theorem Block.take_write (h : offset + bytes.length ≤ 64) :
    (block.write offset bytes).toList.take (offset + bytes.length) =
      block.toList.take offset ++ bytes := by
  refine List.ext_getElem? fun i => ?_
  rw [List.getElem?_take, List.getElem?_append, List.length_take, block.length,
    Block.getElem?_write, List.getElem?_take, Nat.min_eq_left (by omega)]
  by_cases hfront : i < offset
  · rw [if_pos (by omega), if_neg (by omega), if_pos hfront, if_pos hfront]
  · rw [if_neg hfront]
    by_cases hend : i < offset + bytes.length
    · rw [if_pos hend, if_pos (by omega)]
    · rw [if_neg hend, List.getElem?_eq_none (by omega)]

/-- A write up to the end of the block leaves nothing old behind it. -/
theorem Block.write_toList (h : offset + bytes.length = 64) :
    (block.write offset bytes).toList = block.toList.take offset ++ bytes := by
  rw [← Block.take_write block offset bytes h.le, h]
  exact (List.take_of_length_le (Block.length _).le).symm

end write

section refinement

/-- The bytes that a context in memory buffers. -/
def Sha256Memory.ctx (m : Sha256Memory) : Sha256Ctx where
  state := m.state
  totalSize := m.totalSize
  block := m.block.toList.take m.blockSize
  block_lt := by
    have hroom := m.room
    rw [List.length_take]
    omega

theorem Sha256Memory.ctx_length (m : Sha256Memory) : m.ctx.block.length = m.blockSize := by
  have hroom := m.room
  rw [Sha256Memory.ctx, List.length_take, m.block.length]
  omega

theorem Sha256Memory.absorb_ctx (m : Sha256Memory) {chunk : List UInt8}
    (h : m.blockSize + chunk.length ≤ 64) : (m.absorb chunk).ctx = m.ctx.absorb chunk := by
  have hlength : (m.ctx.block ++ chunk).length = m.blockSize + chunk.length := by
    rw [List.length_append, m.ctx_length]
  unfold Sha256Memory.absorb Sha256Ctx.absorb
  by_cases hroom : m.blockSize + chunk.length < 64
  · have hwritten := m.block.take_write m.blockSize chunk h
    rw [dif_pos hroom, dif_pos (hlength.symm ▸ hroom)]
    simp only [Sha256Memory.ctx, hwritten]
  · have hwritten := m.block.write_toList m.blockSize chunk (by omega)
    rw [dif_neg hroom, dif_neg (hlength.symm ▸ hroom)]
    simp only [Sha256Memory.ctx, hwritten, List.take_zero]

theorem Sha256Memory.absorbLoop_ctx (m : Sha256Memory) (input : List UInt8) :
    (m.absorbLoop input).ctx = m.ctx.absorbLoop input := by
  induction hn : input.length using Nat.strong_induction_on generalizing m input with
  | _ n ih =>
      by_cases hnil : input = []
      · rw [absorbLoop, Sha256Ctx.absorbLoop, if_pos hnil, if_pos hnil]
      · have hpos : 0 < input.length := List.length_pos_iff.mpr hnil
        have hroom := m.room
        rw [absorbLoop, Sha256Ctx.absorbLoop, if_neg hnil, if_neg hnil, m.ctx_length]
        rw [ih _ (by rw [List.length_drop, ← hn]; omega) _ _ rfl]
        rw [m.absorb_ctx (by rw [List.length_take]; omega)]

theorem fdSha256UpdateInternal_ctx (m : Sha256Memory) (bytes : List UInt8) :
    (fdSha256UpdateInternal m bytes).ctx = fdSha256Update m.ctx bytes := by
  rw [fdSha256UpdateInternal, Sha256Memory.absorbLoop_ctx]
  rfl

/-- Zeros up to the length, and the length. -/
theorem Block.write_length (block : Block) {size : Nat} (h : size ≤ 56) (bitSize : UInt64) :
    ((block.write size (List.replicate (56 - size) 0)).write 56 (bitSizeBytes bitSize)).toList =
      block.toList.take size ++ List.replicate (56 - size) 0 ++ bitSizeBytes bitSize := by
  have hzeros := block.take_write size (List.replicate (56 - size) 0)
    (by rw [List.length_replicate]; omega)
  rw [List.length_replicate, Nat.add_sub_cancel' h] at hzeros
  rw [Block.write_toList _ 56 (bitSizeBytes bitSize) rfl, hzeros]

theorem fdSha256FinalInternal_ctx (m : Sha256Memory) :
    fdSha256FinalInternal m = fdSha256Final m.ctx := by
  have hroom := m.room
  have hmark : (m.block.write m.blockSize [0x80]).toList.take (m.blockSize + 1) =
      m.ctx.block ++ [0x80] := m.block.take_write m.blockSize [0x80] hroom
  have hlength : (m.ctx.block ++ [0x80]).length = m.blockSize + 1 := by
    rw [List.length_append, m.ctx_length]
    rfl
  unfold fdSha256FinalInternal fdSha256Final
  simp only [hlength]
  by_cases hspill : 56 < m.blockSize + 1
  · have hfull := (m.block.write m.blockSize [0x80]).write_toList (m.blockSize + 1)
      (List.replicate (64 - (m.blockSize + 1)) 0) (by rw [List.length_replicate]; omega)
    have hlast : ∀ block : Block, _ := fun block => block.write_length (Nat.zero_le 56)
      (m.totalSize * 8)
    simp only [if_pos hspill, hfull, hlast]
    rw [hmark]
    rfl
  · have hlast := (m.block.write m.blockSize [0x80]).write_length (not_lt.mp hspill)
      (m.totalSize * 8)
    simp only [if_neg hspill, hlast]
    rw [hmark, hlength]
    rfl

/-- A context in memory hashes the bytes it is given. -/
theorem fdSha256FinalInternal_pieces (pieces : List (List UInt8)) :
    fdSha256FinalInternal (pieces.foldl fdSha256UpdateInternal fdSha256InitInternal) =
      sha256Pieces pieces := by
  have hfold : ∀ m : Sha256Memory, (pieces.foldl fdSha256UpdateInternal m).ctx =
      pieces.foldl fdSha256Update m.ctx := by
    induction pieces with
    | nil => exact fun _ => rfl
    | cons piece pieces ih =>
        intro m
        rw [List.foldl_cons, List.foldl_cons, ih, fdSha256UpdateInternal_ctx]
  rw [fdSha256FinalInternal_ctx, hfold, sha256Pieces]
  rfl

end refinement

end FrontierDirectorate
