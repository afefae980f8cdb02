import Mathlib
import FrontierDirectorate.Core.Rng
import FrontierDirectorate.Lib.KeyedRounds
import FrontierDirectorate.Lib.Sampling

/-!
# Laws of the random draws

Philox is undone round by round, the counters of one scope differ, and a bounded
draw is the first accepted candidate.
-/
namespace FrontierDirectorate
open ByteCodec

section philox

/-- The multipliers are odd: their inverses modulo 2^32. -/
abbrev philoxInverse0 : UInt32 := 0x991a7cdb
abbrev philoxInverse1 : UInt32 := 0x6d7cae67

theorem philoxInverse0_mul (x : UInt32) : philoxInverse0 * (0xd2511f53 * x) = x := by
  rw [← UInt32.mul_assoc, show philoxInverse0 * 0xd2511f53 = 1 by decide, UInt32.one_mul]

theorem philoxInverse1_mul (x : UInt32) : philoxInverse1 * (0xcd9e8d57 * x) = x := by
  rw [← UInt32.mul_assoc, show philoxInverse1 * 0xcd9e8d57 = 1 by decide, UInt32.one_mul]

theorem mul_philoxInverse0 (x : UInt32) : 0xd2511f53 * (philoxInverse0 * x) = x := by
  rw [← UInt32.mul_assoc, show 0xd2511f53 * philoxInverse0 = 1 by decide, UInt32.one_mul]

theorem mul_philoxInverse1 (x : UInt32) : 0xcd9e8d57 * (philoxInverse1 * x) = x := by
  rw [← UInt32.mul_assoc, show 0xcd9e8d57 * philoxInverse1 = 1 by decide, UInt32.one_mul]

/-- The low word of a product. -/
theorem fdMul32_low (left right : UInt32) : (fdMul32 left right).toUInt32 = left * right := by
  rw [fdMul32, UInt64.toUInt32_mul, UInt32.toUInt32_toUInt64, UInt32.toUInt32_toUInt64]

theorem xor_xor_cancel (high lane key : UInt32) : high ^^^ (high ^^^ lane ^^^ key) ^^^ key = lane := by
  rw [UInt32.xor_assoc high lane key, ← UInt32.xor_assoc high high, UInt32.xor_self,
    UInt32.zero_xor, UInt32.xor_assoc, UInt32.xor_self, UInt32.xor_zero]

/-- One round backwards: the low words give the multiplied lanes, and these the high words. -/
def philoxUnround (value : Lanes) (key0 key1 : UInt32) : Lanes :=
  let lane0 := philoxInverse0 * value.lane3
  let lane2 := philoxInverse1 * value.lane1
  { lane0 := lane0
    lane1 := (fdMul32 0xcd9e8d57 lane2 >>> 32).toUInt32 ^^^ value.lane0 ^^^ key0
    lane2 := lane2
    lane3 := (fdMul32 0xd2511f53 lane0 >>> 32).toUInt32 ^^^ value.lane2 ^^^ key1 }

theorem philoxUnround_round (value : Lanes) (key0 key1 : UInt32) :
    philoxUnround (philoxRound value key0 key1) key0 key1 = value := by
  obtain ⟨lane0, lane1, lane2, lane3⟩ := value
  simp only [philoxUnround, philoxRound, fdMul32_low, philoxInverse0_mul, philoxInverse1_mul,
    xor_xor_cancel]

theorem philoxRound_unround (value : Lanes) (key0 key1 : UInt32) :
    philoxRound (philoxUnround value key0 key1) key0 key1 = value := by
  obtain ⟨lane0, lane1, lane2, lane3⟩ := value
  simp only [philoxUnround, philoxRound, fdMul32_low, mul_philoxInverse0, mul_philoxInverse1,
    xor_xor_cancel]

-- the equation lemmas compare a key with the key after it, digit by digit: unfold by hand
theorem philoxRounds_succ (n : Nat) (value : Lanes) (key0 key1 : UInt32) :
    philoxRounds (n + 1) value key0 key1 =
      philoxRounds n (philoxRound value key0 key1) (key0 + 0x9e3779b9) (key1 + 0xbb67ae85) := by
  have h : ∀ last, philoxRounds n (philoxRound value key0 key1) (key0 + 0x9e3779b9)
      (key1 + 0xbb67ae85) = last → philoxRounds (n + 1) value key0 key1 = last := by
    intro last h
    delta philoxRounds at h ⊢
    rw [Nat.brecOn.eq (n + 1)]
    delta philoxRounds._f
    exact h
  exact h _ rfl

/-- The rounds with their key schedule. -/
theorem philoxRounds_eq (n : Nat) (value : Lanes) (key0 key1 : UInt32) :
    philoxRounds n value key0 key1 =
      KeyedRounds.rounds philoxRound (· + 0x9e3779b9) (· + 0xbb67ae85) n value key0 key1 := by
  induction n generalizing value key0 key1 with
  | zero => rfl
  | succ n ih => rw [philoxRounds_succ, ih, KeyedRounds.rounds]

/-- For every key the generator permutes the blocks of four lanes. -/
theorem fdPhilox4x32_10_bijective (key0 key1 : UInt32) :
    Function.Bijective fun counter => fdPhilox4x32_10 counter key0 key1 := by
  simp only [fdPhilox4x32_10, philoxRounds_eq]
  exact KeyedRounds.rounds_bijective _ _ philoxUnround_round philoxRound_unround 10 key0 key1

end philox

section counters

variable (scope : RngScope) (domainId : UInt32) (subjectId occurrenceId : UInt64)

/-- The key of a semantic scope. -/
def rngKey : UInt32 × UInt32 :=
  let digest := (fdRngDigest scope domainId subjectId occurrenceId).toList
  (fdLoadU32Le digest ^^^ fdLoadU32Le (digest.drop 24),
    fdLoadU32Le (digest.drop 4) ^^^ fdLoadU32Le (digest.drop 28))

/-- The counter of a sample, a draw site and a retry block. -/
def rngCounter (logicalSampleIndex : UInt64) (drawSiteId retryBlock : UInt32) : Lanes :=
  let digest := (fdRngDigest scope domainId subjectId occurrenceId).toList
  { lane0 := fdLoadU32Le (digest.drop 8) ^^^ logicalSampleIndex.toUInt32
    lane1 := fdLoadU32Le (digest.drop 12) ^^^ (logicalSampleIndex >>> 32).toUInt32
    lane2 := fdLoadU32Le (digest.drop 16) ^^^ drawSiteId
    lane3 := fdLoadU32Le (digest.drop 20) ^^^ retryBlock }

/-- The block of four lanes that the retries of a draw read. -/
def rngBlock (logicalSampleIndex : UInt64) (drawSiteId retryBlock : UInt32) : Lanes :=
  fdPhilox4x32_10 (rngCounter scope domainId subjectId occurrenceId logicalSampleIndex drawSiteId
      retryBlock) (rngKey scope domainId subjectId occurrenceId).1
    (rngKey scope domainId subjectId occurrenceId).2

theorem fdRngU32Retry_eq (logicalSampleIndex : UInt64) (drawSiteId retryBlock : UInt32)
    (lane : Nat) : fdRngU32Retry scope domainId subjectId occurrenceId logicalSampleIndex drawSiteId
      retryBlock lane = (rngBlock scope domainId subjectId occurrenceId logicalSampleIndex
        drawSiteId retryBlock).get lane := by
  rw [fdRngU32Retry, rngBlock, rngCounter, rngKey]

/-- An index is its two halves. -/
theorem index_halves {a b : UInt64} (hlow : a.toUInt32 = b.toUInt32)
    (hhigh : (a >>> 32).toUInt32 = (b >>> 32).toUInt32) : a = b := by
  have hlow := congrArg UInt32.toNat hlow
  have hhigh := congrArg UInt32.toNat hhigh
  have ha := a.toNat_lt
  have hb := b.toNat_lt
  have hshift : (32 : UInt64).toNat % 64 = 32 := by decide
  simp only [UInt64.toNat_toUInt32, UInt64.toNat_shiftRight, Nat.shiftRight_eq_div_pow,
    hshift] at hlow hhigh
  exact UInt64.toNat_inj.mp (by omega)

theorem rngCounter_injective : Function.Injective fun t : UInt64 × UInt32 × UInt32 =>
    rngCounter scope domainId subjectId occurrenceId t.1 t.2.1 t.2.2 := by
  rintro ⟨index, site, block⟩ ⟨index', site', block'⟩ h
  simp only [rngCounter, Lanes.mk.injEq, UInt32.xor_right_inj] at h
  obtain ⟨hlow, hhigh, rfl, rfl⟩ := h
  rw [index_halves hlow hhigh]

/-- A block is its four lanes. -/
theorem Lanes.eq_of_get {a b : Lanes} (h : ∀ lane < 4, a.get lane = b.get lane) : a = b := by
  obtain ⟨a0, a1, a2, a3⟩ := a
  obtain ⟨b0, b1, b2, b3⟩ := b
  have h0 : a0 = b0 := h 0 (by decide)
  have h1 : a1 = b1 := h 1 (by decide)
  have h2 : a2 = b2 := h 2 (by decide)
  have h3 : a3 = b3 := h 3 (by decide)
  rw [h0, h1, h2, h3]

end counters

section bounded

/-- `fd_rng_bounded` with the word it writes to, for candidates by block and lane: the result of the
call and the word after it. -/
def boundedInto (candidate : UInt32 → Nat → UInt32) (upperBound out : UInt32) : FdResult × UInt32 :=
  if upperBound = 0 then (fdErrInvalidArgument, out)
  else
    let threshold := UInt32.ofNat (2 ^ 32 % upperBound.toNat)
    let accepted := (List.range 256).findSome? fun block =>
      (List.range 4).findSome? fun lane =>
        let value := candidate (UInt32.ofNat block) lane
        if threshold ≤ value then some (value % upperBound) else none
    match accepted with
    | some value => (fdOk, value)
    | none => (fdErrCapacity, out)

/-- The draws of the generator are such calls. -/
theorem fdRngBounded_eq (scope : RngScope) (domainId : UInt32) (subjectId occurrenceId : UInt64)
    (logicalSampleIndex : UInt64) (drawSiteId upperBound out : UInt32) :
    fdRngBounded scope domainId subjectId occurrenceId logicalSampleIndex drawSiteId upperBound =
      match boundedInto (fdRngU32Retry scope domainId subjectId occurrenceId logicalSampleIndex
        drawSiteId) upperBound out with
      | (code, value) => if code = fdOk then .ok value else .error code := by
  unfold fdRngBounded boundedInto
  split
  · rfl
  · cases h : (List.range 256).findSome? fun block => (List.range 4).findSome? fun lane =>
        let value := fdRngU32Retry scope domainId subjectId occurrenceId logicalSampleIndex
          drawSiteId (UInt32.ofNat block) lane
        if UInt32.ofNat (2 ^ 32 % upperBound.toNat) ≤ value then some (value % upperBound)
        else none with
    | none =>
        simp only [h]
        rfl
    | some value =>
        simp only [h]
        rfl

/-- The candidates in the order in which they are examined. -/
def candidateWords (candidate : UInt32 → Nat → UInt32) : List UInt32 :=
  (List.range 256).flatMap fun block => (List.range 4).map (candidate (UInt32.ofNat block))

theorem candidateWords_length (candidate : UInt32 → Nat → UInt32) :
    (candidateWords candidate).length = 1024 := by
  rw [candidateWords, List.length_flatMap]
  simp only [List.length_map, List.length_range, List.map_const', List.sum_replicate]
  rfl

/-- What the search makes of one candidate. -/
def acceptWord (upperBound word : UInt32) : Option UInt32 :=
  if UInt32.ofNat (2 ^ 32 % upperBound.toNat) ≤ word then some (word % upperBound) else none

theorem threshold_toNat {upperBound : UInt32} (h : upperBound ≠ 0) :
    (UInt32.ofNat (2 ^ 32 % upperBound.toNat)).toNat = 4294967296 % upperBound.toNat := by
  have hpos : 0 < upperBound.toNat := Nat.pos_of_ne_zero fun hzero => h (UInt32.toNat_inj.mp hzero)
  have hlt := Nat.mod_lt 4294967296 hpos
  have hbound := upperBound.toNat_lt
  have hrange : (2 : Nat) ^ 32 = 4294967296 := by decide
  rw [hrange, UInt32.toNat_ofNat', hrange]
  exact Nat.mod_eq_of_lt (by omega)

/-- A candidate is accepted from the threshold on. -/
theorem acceptWord_eq {upperBound : UInt32} (h : upperBound ≠ 0) (word : UInt32) :
    acceptWord upperBound word =
      if 4294967296 % upperBound.toNat ≤ word.toNat then some (word % upperBound) else none := by
  rw [acceptWord, ← threshold_toNat h]
  rfl

theorem boundedInto_eq (candidate : UInt32 → Nat → UInt32) {upperBound : UInt32}
    (h : upperBound ≠ 0) (out : UInt32) : boundedInto candidate upperBound out =
      match (candidateWords candidate).findSome? (acceptWord upperBound) with
      | some value => (fdOk, value)
      | none => (fdErrCapacity, out) := by
  unfold boundedInto candidateWords
  rw [if_neg h, ← Sampling.findSome?_rows]
  rfl

/-- The first accepted candidate is what a draw returns. -/
theorem boundedInto_first {candidate : UInt32 → Nat → UInt32} {upperBound : UInt32}
    (h : upperBound ≠ 0) (out : UInt32) {rejected rest : List UInt32} {word : UInt32}
    (hwords : candidateWords candidate = rejected ++ word :: rest)
    (hrejected : ∀ w ∈ rejected, w.toNat < 4294967296 % upperBound.toNat)
    (hword : 4294967296 % upperBound.toNat ≤ word.toNat) :
    boundedInto candidate upperBound out = (fdOk, word % upperBound) := by
  have hnone : rejected.findSome? (acceptWord upperBound) = none := by
    rw [List.findSome?_eq_none_iff]
    intro w hw
    rw [acceptWord_eq h, if_neg (not_le.mpr (hrejected w hw))]
  have hsome : acceptWord upperBound word = some (word % upperBound) := by
    rw [acceptWord_eq h, if_pos hword]
  rw [boundedInto_eq candidate h, hwords, List.findSome?_append, hnone, List.findSome?_cons, hsome]
  rfl

/-- A draw fails when it has run out of candidates, and then it leaves the word alone. -/
theorem boundedInto_failed (candidate : UInt32 → Nat → UInt32) {upperBound : UInt32}
    (h : upperBound ≠ 0) (out : UInt32) :
    ((boundedInto candidate upperBound out).1 ≠ fdOk ↔
        ∀ w ∈ candidateWords candidate, w.toNat < 4294967296 % upperBound.toNat) ∧
      ((boundedInto candidate upperBound out).1 ≠ fdOk →
        boundedInto candidate upperBound out = (fdErrCapacity, out)) := by
  have hall : (candidateWords candidate).findSome? (acceptWord upperBound) = none ↔
      ∀ w ∈ candidateWords candidate, w.toNat < 4294967296 % upperBound.toNat := by
    rw [List.findSome?_eq_none_iff]
    refine forall₂_congr fun w _ => ?_
    rw [acceptWord_eq h]
    split
    · next hle => exact iff_of_false (Option.some_ne_none _) (not_lt.mpr hle)
    · next hlt => exact iff_of_true rfl (not_le.mp hlt)
  rw [boundedInto_eq candidate h, ← hall]
  cases (candidateWords candidate).findSome? (acceptWord upperBound) with
  | none =>
      have hcode : fdErrCapacity ≠ fdOk := by decide
      exact ⟨iff_of_true hcode rfl, fun _ => rfl⟩
  | some value =>
      exact ⟨iff_of_false (not_not.mpr rfl) (Option.some_ne_none _), fun hfail => absurd rfl hfail⟩

/-- Every residue has as many accepted words as any other. -/
theorem ncard_accepted {upperBound residue : UInt32} (h : residue < upperBound) :
    {word : UInt32 | 4294967296 % upperBound.toNat ≤ word.toNat ∧
      word % upperBound = residue}.ncard = 4294967296 / upperBound.toNat := by
  have himage : UInt32.toNat '' {word : UInt32 | 4294967296 % upperBound.toNat ≤ word.toNat ∧
      word % upperBound = residue} =
      ((Finset.Ico (4294967296 % upperBound.toNat) 4294967296).filter
        (· % upperBound.toNat = residue.toNat) : Finset Nat) := by
    ext n
    simp only [Set.mem_image, Set.mem_ofPred_eq, Finset.coe_filter, Finset.mem_Ico]
    constructor
    · rintro ⟨word, ⟨hword, rfl⟩, rfl⟩
      exact ⟨⟨hword, word.toNat_lt⟩, (UInt32.toNat_mod word upperBound).symm⟩
    · rintro ⟨⟨hn, hlt⟩, hresidue⟩
      have hword : (UInt32.ofNat n).toNat = n := by
        rw [UInt32.toNat_ofNat']
        exact Nat.mod_eq_of_lt hlt
      refine ⟨UInt32.ofNat n, ⟨hword.symm ▸ hn, ?_⟩, hword⟩
      rw [← UInt32.toNat_inj, UInt32.toNat_mod, hword, hresidue]
  have hinjective : Function.Injective UInt32.toNat := fun _ _ => UInt32.toNat_inj.mp
  rw [← Set.ncard_image_of_injective _ hinjective, himage, Set.ncard_coe_finset]
  exact Sampling.card_accepted 4294967296 upperBound.toNat residue.toNat (UInt32.lt_iff_toNat_lt.mp h)

end bounded

end FrontierDirectorate
