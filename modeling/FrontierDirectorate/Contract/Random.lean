import Mathlib
import FrontierDirectorate.Core.RngLaws

/-!
# Random draws

Samples of one scope do not alias, and bounded draws are unbiased.
-/
namespace FrontierDirectorate

/-- For every key the generator permutes the counters, and within one scope different samples,
sites and retries have different counters, so that they read different blocks. -/
theorem samples_never_alias :
    (∀ key0 key1, Function.Bijective fun counter => fdPhilox4x32_10 counter key0 key1) ∧
      ∀ scope domainId subjectId occurrenceId,
        (Function.Injective fun t : UInt64 × UInt32 × UInt32 =>
          rngCounter scope domainId subjectId occurrenceId t.1 t.2.1 t.2.2) ∧
        ∀ t u : UInt64 × UInt32 × UInt32,
          (∀ lane < 4, fdRngU32Retry scope domainId subjectId occurrenceId t.1 t.2.1 t.2.2 lane =
            fdRngU32Retry scope domainId subjectId occurrenceId u.1 u.2.1 u.2.2 lane) → t = u := by
  refine ⟨fdPhilox4x32_10_bijective, fun scope domainId subjectId occurrenceId =>
    ⟨rngCounter_injective scope domainId subjectId occurrenceId, fun t u h => ?_⟩⟩
  have hblock : rngBlock scope domainId subjectId occurrenceId t.1 t.2.1 t.2.2 =
      rngBlock scope domainId subjectId occurrenceId u.1 u.2.1 u.2.2 := by
    refine Lanes.eq_of_get fun lane hlane => ?_
    rw [← fdRngU32Retry_eq, ← fdRngU32Retry_eq]
    exact h lane hlane
  exact rngCounter_injective scope domainId subjectId occurrenceId
    ((fdPhilox4x32_10_bijective _ _).injective hblock)

section bounded

/-- A bounded draw takes the first candidate that is not below `2^32 % n` and reduces it. It fails
only when there is none, and then it writes nothing. Every residue is hit equally often. -/
theorem bounded_draw (candidate : UInt32 → Nat → UInt32) {upperBound : UInt32}
    (h : upperBound ≠ 0) (out : UInt32) :
    (candidateWords candidate).length = 1024 ∧
      (∀ rejected word rest, candidateWords candidate = rejected ++ word :: rest →
        (∀ w ∈ rejected, w.toNat < 4294967296 % upperBound.toNat) →
        4294967296 % upperBound.toNat ≤ word.toNat →
        boundedInto candidate upperBound out = (fdOk, word % upperBound) ∧
          word % upperBound < upperBound) ∧
      (boundedInto candidate upperBound out = (fdErrCapacity, out) ↔
        ∀ w ∈ candidateWords candidate, w.toNat < 4294967296 % upperBound.toNat) ∧
      ∀ residue < upperBound, {word : UInt32 | 4294967296 % upperBound.toNat ≤ word.toNat ∧
        word % upperBound = residue}.ncard = 4294967296 / upperBound.toNat := by
  refine ⟨candidateWords_length candidate, fun rejected word rest hwords hrejected hword =>
    ⟨boundedInto_first h out hwords hrejected hword, ?_⟩, ?_, fun residue hresidue =>
    ncard_accepted hresidue⟩
  · have hpos : 0 < upperBound := UInt32.pos_iff_ne_zero.mpr h
    exact UInt32.mod_lt word hpos
  · obtain ⟨hfails, hkeeps⟩ := boundedInto_failed candidate h out
    have hcode : fdErrCapacity ≠ fdOk := by decide
    rw [← hfails]
    exact ⟨fun heq => heq ▸ hcode, hkeeps⟩

/-- A bound that rejects: 2^32 is one more than a multiple of three. -/
theorem bounded_draw_sample :
    (candidateWords fun _ lane => UInt32.ofNat lane).length = 1024 ∧
      (∀ rejected word rest,
        (candidateWords fun _ lane => UInt32.ofNat lane) = rejected ++ word :: rest →
        (∀ w ∈ rejected, w.toNat < 4294967296 % (3 : UInt32).toNat) →
        4294967296 % (3 : UInt32).toNat ≤ word.toNat →
        boundedInto (fun _ lane => UInt32.ofNat lane) 3 7 = (fdOk, word % 3) ∧ word % 3 < 3) ∧
      (boundedInto (fun _ lane => UInt32.ofNat lane) 3 7 = (fdErrCapacity, 7) ↔
        ∀ w ∈ candidateWords fun _ lane => UInt32.ofNat lane,
          w.toNat < 4294967296 % (3 : UInt32).toNat) ∧
      ∀ residue < (3 : UInt32), {word : UInt32 | 4294967296 % (3 : UInt32).toNat ≤ word.toNat ∧
        word % 3 = residue}.ncard = 4294967296 / (3 : UInt32).toNat :=
  bounded_draw (fun _ lane => UInt32.ofNat lane) (by decide) 7

end bounded

end FrontierDirectorate
