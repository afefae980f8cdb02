import Mathlib
import FrontierDirectorate.Core.Isolation

/-!
# The attempt loop

Which attempts a report lists, and the loop run twice over with budgets that are
both larger than the number of the accepted attempt.
-/
namespace FrontierDirectorate
open Checks Accounting

/-- `later` is `report` after `count` rejections from `attempt` on and the acceptance of the next
attempt. -/
structure GenerationReport.AcceptedAfter (report later : GenerationReport) (attempt count : Nat) :
    Prop where
  acceptedAttempt : later.acceptedAttempt = UInt32.ofNat (attempt + count)
  rejectedCount : later.rejectedCount = report.rejectedCount + UInt32.ofNat count
  attempts : later.attempts.map (·.attemptIndex) = report.attempts.map (·.attemptIndex) ++
    (List.range count).map fun i => UInt32.ofNat (attempt + i)

theorem GenerationReport.acceptedAfter_accept (report : GenerationReport) (attempt : Nat)
    (world : World) (validation : ValidationReport) :
    report.AcceptedAfter (report.accept attempt world validation) attempt 0 where
  acceptedAttempt := rfl
  rejectedCount := (UInt32.add_zero _).symm
  attempts := (List.append_nil _).symm

theorem GenerationReport.AcceptedAfter.reject {report later : GenerationReport}
    {attempt count : Nat} {reason : UInt32}
    (h : (report.reject attempt reason).AcceptedAfter later (attempt + 1) count) :
    report.AcceptedAfter later attempt (count + 1) where
  acceptedAttempt := by
    rw [h.acceptedAttempt]
    congr 1
    omega
  rejectedCount := by
    rw [h.rejectedCount, UInt32.ofNat_add]
    change report.rejectedCount + 1 + UInt32.ofNat count = _
    rw [UInt32.add_assoc, UInt32.add_comm 1]
    rfl
  attempts := by
    have hshift : ((fun i => UInt32.ofNat (attempt + i)) ∘ Nat.succ) =
        fun i => UInt32.ofNat (attempt + 1 + i) := by
      funext i
      exact congrArg UInt32.ofNat (by omega)
    rw [h.attempts, List.range_succ_eq_map, List.map_cons, List.map_map, hshift]
    change (report.attempts ++ _).map _ ++ _ = _
    rw [List.map_append, List.append_assoc]
    rfl

section loop

variable {context : FdContext} {draws : Draws} {u v w x y : World}

theorem World.SameSite.of_frames (h : v.SameSite w) (hv : v.SameFrame x) (hw : w.SameFrame y) :
    x.SameSite y where
  width := by rw [hv.config, hw.config, h.width]
  height := by rw [hv.config, hw.config, h.height]
  forestDensityPpm := by rw [hv.config, hw.config, h.forestDensityPpm]
  hillDensityPpm := by rw [hv.config, hw.config, h.hillDensityPpm]
  wetlandDensityPpm := by rw [hv.config, hw.config, h.wetlandDensityPpm]
  tileCount := by rw [hv.tileCount, hw.tileCount, h.tileCount]

theorem World.SameFrame.sameSite (h : v.SameFrame w) : v.SameSite w :=
  World.SameSite.of_frames ⟨rfl, rfl, rfl, rfl, rfl, rfl⟩ (World.SameFrame.refl v) h

theorem World.SameSite.boundsHold (h : v.SameSite w) (hv : v.boundsHold) : w.boundsHold := by
  unfold World.boundsHold World.width World.height at hv ⊢
  rw [h.width, h.height, h.tileCount]
  exact hv

/-- Two attempts of the same number with the same flag, from any ledgers. -/
theorem generateCandidate_isolated (hcontext : context.NeverFails) (hv : v.boundsHold)
    (h : v.SameSite w) (attempt : UInt64) (fallback : Bool) (s t : Ledger) :
    VerdictsRelated (fdGenerateCandidate context draws v attempt fallback s).1
      (fdGenerateCandidate context draws w attempt fallback t).1 := by
  rw [generateCandidate_neverFails hcontext hv, generateCandidate_neverFails hcontext
    (h.boundsHold hv)]
  exact candidate_isolated h fallback

/-- An accepting loop, and the same loop with another budget over another buffer. -/
theorem runAttempts_accepts (hcontext : context.NeverFails) (hv : v.boundsHold) {left attempt : Nat}
    {report later : GenerationReport} {s : Ledger}
    (hrun : (runAttempts context draws left attempt v report s).1 = (later, .ok x)) :
    ∃ count < left, report.AcceptedAfter later attempt count ∧
      (count + 1 < left → ∀ more ≥ left, ∀ w second t, v.SameSite w →
        ∃ third y, (runAttempts context draws more attempt w second t).1 = (third, .ok y) ∧
          second.AcceptedAfter third attempt count ∧ x.SameGround y) := by
  induction left generalizing attempt v report s with
  | zero => cases hrun
  | succ left ih =>
      have hframe : StaysIn v Prod.fst
          (fdGenerateCandidate context draws v (UInt64.ofNat attempt) (left == 0) s).1 :=
        staysIn_generateCandidate s
      simp only [runAttempts, run_bind] at hrun
      -- before the last attempt of both budgets neither flag is set
      have hagain : ∀ more w t, 0 < left → left ≤ more → v.SameSite w →
          VerdictsRelated (fdGenerateCandidate context draws v (UInt64.ofNat attempt) (left == 0) s).1
            (fdGenerateCandidate context draws w (UInt64.ofNat attempt) (more == 0) t).1 := by
        intro more w t hpos hmore hsite
        have hleft : (left == 0) = false := beq_false_of_ne (by omega)
        have hmore : (more == 0) = false := beq_false_of_ne (by omega)
        rw [hleft, hmore]
        exact generateCandidate_isolated hcontext hv hsite _ _ s t
      cases hcandidate : (fdGenerateCandidate context draws v (UInt64.ofNat attempt) (left == 0)
          s).1 with
      | ok accepted =>
          simp only [hcandidate, run_pure] at hrun
          cases hrun
          refine ⟨0, Nat.succ_pos left, report.acceptedAfter_accept _ _ _, ?_⟩
          intro hleft more hmore w second t hsite
          obtain ⟨more, rfl⟩ : ∃ m, more = m + 1 := ⟨more - 1, by omega⟩
          have hsame := hagain more w t (by omega) (by omega) hsite
          rw [hcandidate] at hsame
          obtain ⟨other, hother, hground, -⟩ := hsame.ok
          refine ⟨second.accept attempt other.1 other.2, other.1, ?_,
            second.acceptedAfter_accept _ _ _, hground⟩
          simp only [runAttempts, run_bind, hother, run_pure]
      | error rejected =>
          simp only [hcandidate] at hrun
          by_cases hmemory : rejected.result = fdErrOutOfMemory
          · rw [if_pos hmemory] at hrun
            cases hrun
          · rw [if_neg hmemory] at hrun
            have hrest : v.SameFrame rejected.world := hframe.error hcandidate
            obtain ⟨count, hcount, hlater, hlockstep⟩ := ih (hrest.boundsHold hv) hrun
            refine ⟨count + 1, Nat.succ_lt_succ hcount, hlater.reject, ?_⟩
            intro hleft more hmore w second t hsite
            obtain ⟨more, rfl⟩ : ∃ m, more = m + 1 := ⟨more - 1, by omega⟩
            have hsame := hagain more w t (by omega) (by omega) hsite
            rw [hcandidate] at hsame
            obtain ⟨other, hother, hresult, hreason⟩ := hsame.error
            have hframe' : StaysIn w Prod.fst
                (fdGenerateCandidate context draws w (UInt64.ofNat attempt) (more == 0) t).1 :=
              staysIn_generateCandidate t
            obtain ⟨third, y, hy, hthird, hground⟩ := hlockstep (by omega) more (by omega)
              other.world (second.reject attempt other.reason)
              (fdGenerateCandidate context draws w (UInt64.ofNat attempt) (more == 0) t).2
              (hsite.of_frames hrest (hframe'.error hother))
            refine ⟨third, y, ?_, hthird.reject, hground⟩
            simp only [runAttempts, run_bind, hother, ← hresult, if_neg hmemory]
            exact hy

end loop

section generation

variable {context : FdContext} {config : WorldConfig} {content : ContentManifest} {seed : UInt64}

/-- The bytes of a world of this configuration. -/
def WorldConfig.worldSize (config : WorldConfig) : Nat :=
  config.width.toNat * config.height.toNat * sizeofFdTile + sizeofFdWorld

theorem emptyWorld_boundsHold (h : InputsValid config content) (worldBytes : Nat) :
    (emptyWorld config seed content.packs worldBytes).boundsHold := by
  refine ⟨h.width.1, h.width.2, h.height.1, h.height.2, List.length_replicate, ?_⟩
  exact List.length_replicate.trans_le h.tiles

/-- What the call returns once its attempts are over. -/
def concludeGeneration (out : Option StructHeader)
    (ran : GenerationReport × Except FdResult World) :
    Option GenerationReport × Except Fail World :=
  (out.map fun _ => ran.1, match ran.2 with
    | .ok world => .ok world
    | .error result => .error (fdDiagSet
        (if result = fdErrOutOfMemory then fdErrOutOfMemory else fdErrGenerationExhausted)
        fdFieldAttemptBudget ran.1.rejectedCount
        "bounded generation exhausted without publishing a world"))

theorem concludeGeneration_ok {out : StructHeader}
    {ran : GenerationReport × Except FdResult World} {report : GenerationReport} {world : World}
    (h : concludeGeneration (some out) ran = (some report, .ok world)) :
    ran = (report, .ok world) := by
  obtain ⟨later, result⟩ := ran
  cases result with
  | error result => cases (Prod.ext_iff.mp h).2
  | ok accepted =>
      cases h
      rfl

theorem fdWorldGenerate_header {out : Option StructHeader} {world : World} {s : Ledger}
    (h : (fdWorldGenerate context config seed content out s).1.2 = .ok world) :
    ∀ header ∈ out, fdOutputStructValid header sizeofFdGenerationReport = true := by
  intro header hheader
  rw [Option.mem_def] at hheader
  subst hheader
  unfold fdWorldGenerate at h
  cases hchecked : generateChecks config content (some header) with
  | error failure =>
      simp only [hchecked, run_pure] at h
      cases h
  | ok _ =>
      have hvalid := (failIf_bind_eq_ok.mp hchecked).1
      simpa using hvalid

/-- A call that gets as far as its attempts. -/
theorem fdWorldGenerate_neverFails (hcontext : context.NeverFails) (seed : UInt64)
    (hinputs : InputsValid config content) (hdensity : config.forestDensityPpm ≠ 0 ∧
      config.hillDensityPpm ≠ 0 ∧ config.wetlandDensityPpm ≠ 0)
    (hsize : config.worldSize ≤ context.maxLiveWorldBytes.toNat)
    {out : Option StructHeader}
    (hout : ∀ header ∈ out, fdOutputStructValid header sizeofFdGenerationReport = true)
    (s : Ledger) :
    ∃ t, (fdWorldGenerate context config seed content out s).1 = concludeGeneration out
      (runAttempts context (emptyWorld config seed content.packs config.worldSize).rngScope.draws
        config.attemptBudget.toNat 0 (emptyWorld config seed content.packs config.worldSize)
        (blankReport config seed content.packs) t).1 := by
  have hchecks : generateChecks config content out = .ok () := by
    have hheader : ¬ (out.any fun header => !fdOutputStructValid header sizeofFdGenerationReport) =
        true := by
      cases out with
      | none => decide
      | some header => simp [hout header rfl]
    rw [generateChecks, failIf_bind_of_not hheader]
    exact inputsValid_iff.mpr hinputs
  obtain ⟨hlow, hhigh⟩ : 0 < config.width.toNat * config.height.toNat ∧
      config.width.toNat * config.height.toNat ≤ 32768 := by
    have hwidth : 32 ≤ config.width.toNat := hinputs.width.1
    have hheight : 16 ≤ config.height.toNat := hinputs.height.1
    exact ⟨Nat.mul_pos (by omega) (by omega), hinputs.tiles⟩
  have hbytes : UInt64.ofNat (config.width.toNat * config.height.toNat * sizeofFdTile) ≠ 0 :=
    ofNat_ne_zero (Nat.mul_pos hlow (by decide))
      ((Nat.mul_le_mul_right 24 hhigh).trans_lt (by decide))
  have hworld : worldBytes ≠ 0 := by decide
  unfold WorldConfig.worldSize at hsize
  have hfits : ¬ (context.maxLiveWorldBytes.toNat <
      config.width.toNat * config.height.toNat * sizeofFdTile + sizeofFdWorld ∨
      uint32Max < config.width.toNat * config.height.toNat * sizeofFdTile) := by
    rintro (h | h)
    · omega
    · exact absurd h (not_lt.mpr ((Nat.mul_le_mul_right 24 hhigh).trans (by decide)))
  have hnonzero : ¬ (config.forestDensityPpm = 0 ∨ config.hillDensityPpm = 0 ∨
      config.wetlandDensityPpm = 0) := by
    rintro (h | h | h)
    · exact hdensity.1 h
    · exact hdensity.2.1 h
    · exact hdensity.2.2 h
  have halloc : ∀ {size : UInt64} (_ : size ≠ 0) (s : Ledger),
      (!(fdContextAlloc context size s).1) = true ↔ False := by
    intro size hne s
    rw [fdContextAlloc_neverFails hcontext hne s]
    decide
  unfold fdWorldGenerate
  simp only [hchecks, if_neg hnonzero, if_neg hfits, run_bind, run_ite, halloc hbytes,
    halloc hworld, if_false]
  refine ⟨(fdContextAlloc context
    (UInt64.ofNat (config.width.toNat * config.height.toNat * sizeofFdTile))
    (fdContextAlloc context worldBytes s).2).2, ?_⟩
  unfold WorldConfig.worldSize
  generalize runAttempts context _ _ _ _ _ _ = ran
  obtain ⟨⟨report, result⟩, t⟩ := ran
  cases result <;> rfl

end generation

end FrontierDirectorate
