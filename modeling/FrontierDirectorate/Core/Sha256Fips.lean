import Mathlib
import FrontierDirectorate.Core.Sha256
import FrontierDirectorate.Lib.Fips180

/-!
# The compression function and the standard

The words, the schedule and the rounds of `fd_sha256_compress` are those of the
standard, block for block.
-/
namespace FrontierDirectorate
open ByteCodec Fips180

section words

theorem small0_word (x : UInt32) :
    (fdRotr32 x 7 ^^^ fdRotr32 x 18 ^^^ (x >>> 3)).toBitVec = sigma0 x.toBitVec := rfl

theorem small1_word (x : UInt32) :
    (fdRotr32 x 17 ^^^ fdRotr32 x 19 ^^^ (x >>> 10)).toBitVec = sigma1 x.toBitVec := rfl

theorem large0_word (x : UInt32) :
    (fdRotr32 x 2 ^^^ fdRotr32 x 13 ^^^ fdRotr32 x 22).toBitVec = sum0 x.toBitVec := rfl

theorem large1_word (x : UInt32) :
    (fdRotr32 x 6 ^^^ fdRotr32 x 11 ^^^ fdRotr32 x 25).toBitVec = sum1 x.toBitVec := rfl

theorem choice_word (x y z : UInt32) :
    ((x &&& y) ^^^ ((~~~x) &&& z)).toBitVec = ch x.toBitVec y.toBitVec z.toBitVec := rfl

theorem majority_word (x y z : UInt32) :
    ((x &&& y) ^^^ (x &&& z) ^^^ (y &&& z)).toBitVec = maj x.toBitVec y.toBitVec z.toBitVec := rfl

theorem constants_word (t : Nat) : (sha256Constants.getD t 0).toBitVec = constants.getD t 0 := by
  have hmap : constants = sha256Constants.map UInt32.toBitVec := by decide
  rw [hmap, List.getD_eq_getElem?_getD, List.getD_eq_getElem?_getD, List.getElem?_map]
  cases sha256Constants[t]? with
  | none => rfl
  | some k => rfl

end words

section compress

/-- The eight words of a state. -/
def Sha256State.working (s : Sha256State) : Working :=
  ⟨s.a.toBitVec, s.b.toBitVec, s.c.toBitVec, s.d.toBitVec, s.e.toBitVec, s.f.toBitVec,
    s.g.toBitVec, s.h.toBitVec⟩

theorem compressRound_working (words : Array UInt32) (s : Sha256State) (t : Nat) :
    (compressRound words s t).working =
      hashRound (fun t => (words.getD t 0).toBitVec) s.working t := by
  simp only [compressRound, Sha256State.working, hashRound, UInt32.toBitVec_add, large0_word,
    large1_word, choice_word, majority_word, constants_word]

/-- The words of a block of bytes. -/
def blockWords (block : List UInt8) (t : Nat) : Word := (blockWord block t).toBitVec

/-- The schedule holds the recurrence as far as it has been filled. -/
structure Scheduled (block : List UInt8) (words : Array UInt32) (count : Nat) : Prop where
  size : words.size = count
  entries : ∀ t < count, (words.getD t 0).toBitVec = schedule (blockWords block) t

theorem scheduled_first (block : List UInt8) :
    Scheduled block ((List.range 16).map (blockWord block)).toArray 16 := by
  refine ⟨rfl, fun t ht => ?_⟩
  rw [schedule, if_pos ht, Array.getD_eq_getD_getElem?, List.getElem?_toArray, List.getElem?_map,
    List.getElem?_range ht]
  rfl

theorem scheduled_step {block : List UInt8} {words : Array UInt32} {count : Nat}
    (h : Scheduled block words count) (hcount : 16 ≤ count) :
    Scheduled block (scheduleStep words count) (count + 1) := by
  have hsize := h.size
  constructor
  · rw [scheduleStep, Array.size_push, hsize]
  · intro t ht
    rw [scheduleStep, Array.getD_eq_getD_getElem?, Array.getElem?_push, hsize]
    split
    · next heq =>
        subst heq
        rw [Option.getD_some, schedule, if_neg (not_lt.mpr hcount)]
        simp only [UInt32.toBitVec_add, small0_word, small1_word]
        rw [h.entries (t - 15) (by omega), h.entries (t - 2) (by omega),
          h.entries (t - 16) (by omega), h.entries (t - 7) (by omega)]
        ac_rfl
    · next hne =>
        rw [← Array.getD_eq_getD_getElem?]
        exact h.entries t (by omega)

theorem messageSchedule_scheduled (block : List UInt8) :
    Scheduled block (messageSchedule block) 64 := by
  have hrun : ∀ n count words, 16 ≤ count → Scheduled block words count →
      Scheduled block ((List.range' count n).foldl scheduleStep words) (count + n) := by
    intro n
    induction n with
    | zero =>
        intro count words _ h
        exact h
    | succ n ih =>
        intro count words hcount h
        rw [List.range'_succ, List.foldl_cons, show count + (n + 1) = count + 1 + n by omega]
        exact ih _ _ (by omega) (scheduled_step h hcount)
  exact hrun 48 16 _ (Nat.le_refl 16) (scheduled_first block)

/-- One block is worked in as the standard says. -/
theorem fdSha256Compress_working (state : Sha256State) (block : List UInt8) :
    (fdSha256Compress state block).working = compress state.working (blockWords block) := by
  have hscheduled := messageSchedule_scheduled block
  have hrounds : ∀ n ≤ 64, ∀ s : Sha256State,
      ((List.range n).foldl (compressRound (messageSchedule block)) s).working =
        (List.range n).foldl (hashRound (schedule (blockWords block))) s.working := by
    intro n
    induction n with
    | zero => exact fun _ _ => rfl
    | succ n ih =>
        intro hn s
        rw [List.range_succ, List.foldl_append, List.foldl_append, List.foldl_cons, List.foldl_cons,
          List.foldl_nil, List.foldl_nil, compressRound_working, ih (by omega) s]
        simp only [hashRound, hscheduled.entries n (by omega)]
  have hsum : (fdSha256Compress state block).working =
      ((List.range 64).foldl (compressRound (messageSchedule block)) state).working.add
        state.working := by
    simp only [fdSha256Compress, Sha256State.working, Working.add, UInt32.toBitVec_add,
      BitVec.add_comm]
  rw [hsum, hrounds 64 (Nat.le_refl 64), compress]

end compress

section blocks

/-- The state after the first blocks of a byte string. -/
def compressBlocks (bytes : List UInt8) (count : Nat) : Sha256State :=
  (List.range count).foldl (fun state i =>
    fdSha256Compress state ((bytes.drop (64 * i)).take 64)) fdSha256Init.state

theorem compressBlocks_succ (bytes : List UInt8) (count : Nat) :
    compressBlocks bytes (count + 1) =
      fdSha256Compress (compressBlocks bytes count) ((bytes.drop (64 * count)).take 64) := by
  rw [compressBlocks, List.range_succ, List.foldl_append]
  rfl

theorem compressBlocks_append (bytes rest : List UInt8) {count : Nat}
    (h : 64 * count ≤ bytes.length) :
    compressBlocks (bytes ++ rest) count = compressBlocks bytes count := by
  induction count with
  | zero => simp only [compressBlocks, List.range_zero, List.foldl_nil]
  | succ count ih =>
      rw [compressBlocks_succ, compressBlocks_succ, ih (by omega),
        List.drop_append_of_le_length (by omega),
        List.take_append_of_le_length (by rw [List.length_drop]; omega)]

/-- One byte that the block has room for. -/
theorem absorbByte_room {ctx : Sha256Ctx} (h : ctx.block.length + 1 < 64) (b : UInt8) :
    (ctx.absorbByte b).state = ctx.state ∧ (ctx.absorbByte b).block = ctx.block ++ [b] := by
  have hroom : (ctx.block ++ [b]).length < 64 := by
    rw [List.length_append, List.length_singleton]
    exact h
  rw [Sha256Ctx.absorbByte, Sha256Ctx.absorb, dif_pos hroom]
  exact ⟨rfl, rfl⟩

/-- One byte that fills the block. -/
theorem absorbByte_full {ctx : Sha256Ctx} (h : ¬ ctx.block.length + 1 < 64) (b : UInt8) :
    (ctx.absorbByte b).state = fdSha256Compress ctx.state (ctx.block ++ [b]) ∧
      (ctx.absorbByte b).block = [] := by
  have hfull : ¬ (ctx.block ++ [b]).length < 64 := by
    rw [List.length_append, List.length_singleton]
    exact h
  rw [Sha256Ctx.absorbByte, Sha256Ctx.absorb, dif_neg hfull]
  exact ⟨rfl, rfl⟩

/-- A context that has seen `bytes` has worked in their whole blocks and buffers the rest. -/
theorem foldl_absorbByte_eq (bytes : List UInt8) :
    (bytes.foldl Sha256Ctx.absorbByte fdSha256Init).state =
        compressBlocks bytes (bytes.length / 64) ∧
      (bytes.foldl Sha256Ctx.absorbByte fdSha256Init).block =
        bytes.drop (64 * (bytes.length / 64)) := by
  induction bytes using List.reverseRecOn with
  | nil => exact ⟨rfl, rfl⟩
  | append_singleton bytes b ih =>
      obtain ⟨hstate, hblock⟩ := ih
      have hlength : (bytes.foldl Sha256Ctx.absorbByte fdSha256Init).block.length =
          bytes.length % 64 := by
        rw [hblock, List.length_drop]
        omega
      rw [List.foldl_append, List.foldl_cons, List.foldl_nil]
      by_cases hroom : bytes.length % 64 + 1 < 64
      · obtain ⟨hkept, hgrown⟩ := absorbByte_room (hlength ▸ hroom) b
        have hsame : (bytes ++ [b]).length / 64 = bytes.length / 64 := by
          rw [List.length_append, List.length_singleton]
          omega
        rw [hkept, hgrown, hsame, hstate, hblock, compressBlocks_append bytes [b] (by omega),
          List.drop_append_of_le_length (by omega)]
        exact ⟨rfl, rfl⟩
      · obtain ⟨hworked, hempty⟩ := absorbByte_full (hlength ▸ hroom) b
        have hnext : (bytes ++ [b]).length / 64 = bytes.length / 64 + 1 := by
          rw [List.length_append, List.length_singleton]
          omega
        have hrest : bytes.drop (64 * (bytes.length / 64)) ++ [b] =
            ((bytes ++ [b]).drop (64 * (bytes.length / 64))).take 64 := by
          rw [List.drop_append_of_le_length (by omega), List.take_of_length_le]
          rw [List.length_append, List.length_drop, List.length_singleton]
          omega
        rw [hworked, hempty, hnext, hstate, hblock, hrest, compressBlocks_succ,
          compressBlocks_append bytes [b] (by omega)]
        refine ⟨rfl, (List.drop_eq_nil_of_le ?_).symm⟩
        rw [List.length_append, List.length_singleton]
        omega

/-- The padding as bytes. -/
def padBytes (bytes : List UInt8) : List UInt8 :=
  bytes ++ 0x80 :: (List.replicate ((119 - bytes.length % 64) % 64) 0 ++
    bitSizeBytes (UInt64.ofNat bytes.length * 8))

theorem padBytes_length (bytes : List UInt8) :
    (padBytes bytes).length = bytes.length + (119 - bytes.length % 64) % 64 + 9 := by
  simp only [padBytes, List.length_append, List.length_cons, List.length_replicate]
  change bytes.length + ((119 - bytes.length % 64) % 64 + 8 + 1) = _
  omega

/-- The digest is that of the padded blocks, whether or not the padding spills over. -/
theorem fdSha256_eq_blocks (bytes : List UInt8) :
    fdSha256 bytes = (compressBlocks (padBytes bytes) ((padBytes bytes).length / 64)).digest := by
  obtain ⟨hstate, hblock⟩ := foldl_absorbByte_eq bytes
  have hlength : (bytes.drop (64 * (bytes.length / 64)) ++ [0x80]).length =
      bytes.length % 64 + 1 := by
    rw [List.length_append, List.length_drop, List.length_singleton]
    omega
  have honce : fdSha256 bytes = fdSha256Final (fdSha256Update fdSha256Init bytes) := by
    have hpieces := sha256Pieces_eq_flatten [bytes]
    rw [List.flatten_cons, List.flatten_nil, List.append_nil] at hpieces
    rw [← hpieces, sha256Pieces]
    rfl
  have hwhole : compressBlocks (padBytes bytes) (bytes.length / 64) =
      compressBlocks bytes (bytes.length / 64) := compressBlocks_append bytes _ (by omega)
  have hrest : (padBytes bytes).drop (64 * (bytes.length / 64)) =
      bytes.drop (64 * (bytes.length / 64)) ++ [0x80] ++ (List.replicate
        ((119 - bytes.length % 64) % 64) 0 ++ bitSizeBytes (UInt64.ofNat bytes.length * 8)) := by
    rw [padBytes, List.drop_append_of_le_length (by omega), List.append_assoc]
    rfl
  have hpadded := padBytes_length bytes
  have htotal : fdSha256Init.totalSize + UInt64.ofNat bytes.length = UInt64.ofNat bytes.length :=
    UInt64.zero_add _
  rw [honce, fdSha256Final, fdSha256Update_eq]
  simp only [hstate, hblock, hlength, htotal]
  by_cases hspill : 56 < bytes.length % 64 + 1
  · have hcount : (padBytes bytes).length / 64 = bytes.length / 64 + 1 + 1 := by omega
    have hzeros : (List.replicate ((119 - bytes.length % 64) % 64) 0 : List UInt8) =
        List.replicate (64 - (bytes.length % 64 + 1)) 0 ++ List.replicate 56 0 := by
      rw [List.replicate_append_replicate]
      congr 1
      omega
    have hfirst : (bytes.drop (64 * (bytes.length / 64)) ++ [0x80] ++
        List.replicate (64 - (bytes.length % 64 + 1)) 0).length = 64 := by
      rw [List.length_append, hlength, List.length_replicate]
      omega
    have hlast : (padBytes bytes).drop (64 * (bytes.length / 64)) =
        (bytes.drop (64 * (bytes.length / 64)) ++ [0x80] ++
          List.replicate (64 - (bytes.length % 64 + 1)) 0) ++
        (List.replicate 56 0 ++ bitSizeBytes (UInt64.ofNat bytes.length * 8)) := by
      rw [hrest, hzeros]
      simp only [List.append_assoc]
    have hnext : (padBytes bytes).drop (64 * (bytes.length / 64 + 1)) =
        List.replicate 56 0 ++ bitSizeBytes (UInt64.ofNat bytes.length * 8) := by
      rw [Nat.mul_add, Nat.mul_one, ← List.drop_drop, hlast, List.drop_left' hfirst]
    rw [hcount, compressBlocks_succ, compressBlocks_succ, hwhole, hnext, hlast,
      List.take_left' hfirst, List.take_of_length_le (by rfl), if_pos hspill]
    rfl
  · have hcount : (padBytes bytes).length / 64 = bytes.length / 64 + 1 := by omega
    have hzeros : (119 - bytes.length % 64) % 64 = 56 - (bytes.length % 64 + 1) := by omega
    have hwidth : (bytes.drop (64 * (bytes.length / 64)) ++ [0x80] ++ (List.replicate
        (56 - (bytes.length % 64 + 1)) 0 ++
          bitSizeBytes (UInt64.ofNat bytes.length * 8))).length ≤ 64 := by
      rw [List.length_append, hlength, List.length_append, List.length_replicate]
      change bytes.length % 64 + 1 + (56 - (bytes.length % 64 + 1) + 8) ≤ 64
      omega
    rw [hcount, compressBlocks_succ, hwhole, hrest, hzeros, if_neg hspill,
      List.take_of_length_le hwidth]
    simp only [hlength, ← List.append_assoc]

end blocks

section bits

theorem byteBits_word (x : UInt32) : byteBits x.toUInt8 = bitsOf 8 x.toNat := by
  rw [byteBits, UInt32.toNat_toUInt8]
  exact bitsOf_mod 8 x.toNat

theorem byteBits_wide (x : UInt64) : byteBits x.toUInt8 = bitsOf 8 x.toNat := by
  rw [byteBits, UInt64.toNat_toUInt8]
  exact bitsOf_mod 8 x.toNat

theorem bytesBits_cons (b : UInt8) (bytes : List UInt8) :
    bytesBits (b :: bytes) = byteBits b ++ bytesBits bytes := List.flatMap_cons

/-- A word of the digest, bit for bit. -/
theorem bytesBits_wordBytes (word : UInt32) : bytesBits (wordBytes word) = bitsOf 32 word.toNat := by
  have h32 : bitsOf 32 word.toNat = _ := bitsOf_add 8 24 word.toNat
  have h24 : bitsOf 24 word.toNat = _ := bitsOf_add 8 16 word.toNat
  have h16 : bitsOf 16 word.toNat = _ := bitsOf_add 8 8 word.toNat
  rw [h32, h24, h16, wordBytes]
  simp only [bytesBits_cons, byteBits_word, UInt32.toNat_shiftRight, Nat.shiftRight_eq_div_pow,
    UInt32.reduceToNat, Nat.reduceMod]
  rw [bytesBits, List.flatMap_nil, List.append_nil]

/-- The length field, bit for bit. -/
theorem bytesBits_bitSizeBytes (bitSize : UInt64) :
    bytesBits (bitSizeBytes bitSize) = bitsOf 64 bitSize.toNat := by
  have h64 : bitsOf 64 bitSize.toNat = _ := bitsOf_add 8 56 bitSize.toNat
  have h56 : bitsOf 56 bitSize.toNat = _ := bitsOf_add 8 48 bitSize.toNat
  have h48 : bitsOf 48 bitSize.toNat = _ := bitsOf_add 8 40 bitSize.toNat
  have h40 : bitsOf 40 bitSize.toNat = _ := bitsOf_add 8 32 bitSize.toNat
  have h32 : bitsOf 32 bitSize.toNat = _ := bitsOf_add 8 24 bitSize.toNat
  have h24 : bitsOf 24 bitSize.toNat = _ := bitsOf_add 8 16 bitSize.toNat
  have h16 : bitsOf 16 bitSize.toNat = _ := bitsOf_add 8 8 bitSize.toNat
  rw [h64, h56, h48, h40, h32, h24, h16, bitSizeBytes]
  simp only [bytesBits_cons, byteBits_wide, UInt64.toNat_shiftRight, Nat.shiftRight_eq_div_pow,
    UInt64.reduceToNat, Nat.reduceMod]
  rw [bytesBits, List.flatMap_nil, List.append_nil]

theorem bytesBits_zeros (n : Nat) :
    bytesBits (List.replicate n 0) = List.replicate (8 * n) false := by
  induction n with
  | zero => rfl
  | succ n ih =>
      rw [List.replicate_succ, bytesBits_cons, ih, Nat.mul_succ, Nat.add_comm,
        ← List.replicate_append_replicate]
      rfl

/-- The padding as bits is that of the standard. -/
theorem bytesBits_padBytes {bytes : List UInt8} (h : bytes.length < 2305843009213693952) :
    bytesBits (padBytes bytes) = pad (bytesBits bytes) := by
  have hsize : (UInt64.ofNat bytes.length * 8).toNat = 8 * bytes.length := by
    rw [UInt64.toNat_mul, UInt64.toNat_ofNat']
    change bytes.length % 18446744073709551616 * 8 % 18446744073709551616 = _
    omega
  have hmark : byteBits 0x80 = true :: List.replicate 7 false := rfl
  have hzeros : 7 + 8 * ((119 - bytes.length % 64) % 64) =
      (959 - 8 * bytes.length % 512) % 512 := by omega
  rw [padBytes, bytesBits_append, bytesBits_cons, bytesBits_append, bytesBits_zeros,
    bytesBits_bitSizeBytes, hsize, hmark, pad, bytesBits_length, List.cons_append,
    ← List.append_assoc, List.replicate_append_replicate, hzeros]

theorem bytesBits_digest (s : Sha256State) : bytesBits s.digest.toList = s.working.bits := by
  change bytesBits (wordBytes s.a ++ wordBytes s.b ++ wordBytes s.c ++ wordBytes s.d ++
    wordBytes s.e ++ wordBytes s.f ++ wordBytes s.g ++ wordBytes s.h) = _
  simp only [bytesBits_append, bytesBits_wordBytes, Working.bits, Sha256State.working,
    List.flatMap_cons, List.flatMap_nil, List.append_assoc, List.append_nil]
  rfl

end bits

section standard

/-- A big-endian word is the little-endian one of the bytes in reverse. -/
theorem fdLoadU32Le_reversed (a b c d : UInt8) :
    (a.toUInt32 <<< 24) ||| (b.toUInt32 <<< 16) ||| (c.toUInt32 <<< 8) ||| d.toUInt32 =
      fdLoadU32Le [d, c, b, a] := by
  change _ = d.toUInt32 ||| (c.toUInt32 <<< 8) ||| (b.toUInt32 <<< 16) ||| (a.toUInt32 <<< 24)
  rw [UInt32.or_comm _ d.toUInt32, UInt32.or_comm _ (c.toUInt32 <<< 8),
    UInt32.or_comm (a.toUInt32 <<< 24), UInt32.or_assoc, UInt32.or_assoc]

theorem blockWord_toNat (block : List UInt8) (t : Nat) :
    (blockWord block t).toNat = [byteAt block (t * 4), byteAt block (t * 4 + 1),
      byteAt block (t * 4 + 2), byteAt block (t * 4 + 3)].foldl (fun n b => n * 256 + b.toNat) 0 := by
  have hload := fdLoadU32Le_toNat (byteAt block (t * 4 + 3)) (byteAt block (t * 4 + 2))
    (byteAt block (t * 4 + 1)) (byteAt block (t * 4)) []
  have hword : blockWord block t = fdLoadU32Le [byteAt block (t * 4 + 3), byteAt block (t * 4 + 2),
      byteAt block (t * 4 + 1), byteAt block (t * 4)] := fdLoadU32Le_reversed _ _ _ _
  rw [hword, hload]
  simp only [List.foldl_cons, List.foldl_nil]
  omega

/-- Four bytes of a long enough string. -/
theorem take_four {p : List UInt8} {k : Nat} (h : k + 4 ≤ p.length) :
    (p.drop k).take 4 = [byteAt p k, byteAt p (k + 1), byteAt p (k + 2), byteAt p (k + 3)] := by
  have hbyte : ∀ j (hj : j < p.length), p.drop j = byteAt p j :: p.drop (j + 1) := by
    intro j hj
    rw [List.drop_eq_getElem_cons hj, byteAt, List.getD_eq_getElem?_getD,
      List.getElem?_eq_getElem hj, Option.getD_some]
  rw [hbyte k (by omega), hbyte (k + 1) (by omega), hbyte (k + 1 + 1) (by omega),
    hbyte (k + 1 + 1 + 1) (by omega)]
  rfl

/-- A word of a block, read as bytes or as bits. -/
theorem blockWord_bits {bytes : List UInt8} {i t : Nat} (hi : 64 * (i + 1) ≤ bytes.length)
    (ht : t < 16) : Fips180.blockWord (bytesBits bytes) i t =
      blockWords ((bytes.drop (64 * i)).take 64) t := by
  have hblock : ((bytes.drop (64 * i)).take 64).length = 64 := by
    rw [List.length_take, List.length_drop]
    omega
  have hoffset : 512 * i + 32 * t = 8 * (64 * i + t * 4) := by omega
  have hbits : ((bytesBits bytes).drop (512 * i + 32 * t)).take (8 * 4) =
      bytesBits ((((bytes.drop (64 * i)).take 64).drop (t * 4)).take 4) := by
    rw [hoffset, bytesBits_drop, bytesBits_take, List.drop_take, List.take_take, List.drop_drop,
      Nat.min_eq_left (by omega)]
  rw [Fips180.blockWord, hbits, take_four (by omega), valueOf_bytesBits, ← blockWord_toNat]
  exact BitVec.ofNat_toNat 32 (blockWord _ t).toBitVec

theorem compressBlocks_working (bytes : List UInt8) {count : Nat}
    (h : 64 * count ≤ bytes.length) : (compressBlocks bytes count).working =
      (List.range count).foldl (fun value i => compress value (Fips180.blockWord (bytesBits bytes) i))
        initial := by
  induction count with
  | zero => rfl
  | succ count ih =>
      rw [compressBlocks_succ, fdSha256Compress_working, ih (by omega), List.range_succ,
        List.foldl_append, List.foldl_cons, List.foldl_nil]
      exact compress_congr (fun t ht => (blockWord_bits h ht).symm) _

/-- The digest of the core is that of the standard. -/
theorem bytesBits_fdSha256 {bytes : List UInt8} (h : bytes.length < 2305843009213693952) :
    bytesBits (fdSha256 bytes).toList = sha256 (bytesBits bytes) := by
  have hbits := bytesBits_padBytes h
  have hcount : (pad (bytesBits bytes)).length / 512 = (padBytes bytes).length / 64 := by
    rw [← hbits, bytesBits_length]
    omega
  rw [fdSha256_eq_blocks, bytesBits_digest, compressBlocks_working _ (by omega), sha256, hcount,
    hbits]

end standard

end FrontierDirectorate
