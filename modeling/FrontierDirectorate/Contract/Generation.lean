import Mathlib
import FrontierDirectorate.Contract.Saves
import FrontierDirectorate.Core.Attempts

/-!
# Generation

An attempt is not touched by the attempts before it, and a larger budget does not
change which attempt is accepted.
-/
namespace FrontierDirectorate
open Checks

section isolation

/-- Two attempts with the same verdict and reason, and the same result when they are accepted. -/
structure SameVerdict (left right : Except Rejected (World × ValidationReport)) : Prop where
  rejected : ∀ a, left = .error a → ∃ b, right = .error b ∧ b.result = a.result ∧
    b.reason = a.reason
  accepted : ∀ world report, left = .ok (world, report) →
    ∃ world', right = .ok (world', report) ∧ world.SameGround world'

theorem VerdictsRelated.sameVerdict {left right : Except Rejected (World × ValidationReport)}
    (h : VerdictsRelated left right) : SameVerdict left right := by
  constructor
  · rintro a rfl
    obtain ⟨b, rfl, hresult, hreason⟩ := h.error
    exact ⟨b, rfl, hresult.symm, hreason.symm⟩
  · rintro world report rfl
    obtain ⟨⟨world', report'⟩, rfl, hground, hreport⟩ := h.ok
    change report' = report at hreport
    exact ⟨world', by rw [hreport], hground⟩

/-- The report of a world accepted at attempt `count`: all earlier attempts, in order. -/
structure GenerationReport.ListsRejections (report : GenerationReport) (count : Nat) : Prop where
  acceptedAttempt : report.acceptedAttempt.toNat = count
  rejectedCount : report.rejectedCount.toNat = count
  attempts : report.attempts.map (·.attemptIndex.toNat) = List.range count

theorem listsRejections_of_accepted {config : WorldConfig} {seed : UInt64}
    {packs : List ContentPack} {later : GenerationReport} {count : Nat}
    (h : (blankReport config seed packs).AcceptedAfter later 0 count) (hcount : count < 64) :
    later.ListsRejections count := by
  have hsmall : ∀ n < 64, (UInt32.ofNat n).toNat = n := fun n hn =>
    UInt32.toNat_ofNat_of_lt' (hn.trans (by decide))
  constructor
  · rw [h.acceptedAttempt, Nat.zero_add, hsmall count hcount]
  · have hrejected : later.rejectedCount = 0 + UInt32.ofNat count := h.rejectedCount
    rw [hrejected, UInt32.zero_add, hsmall count hcount]
  · have hindices : later.attempts.map (·.attemptIndex) =
        (List.range count).map fun i => UInt32.ofNat (0 + i) := h.attempts
    calc later.attempts.map (·.attemptIndex.toNat)
        = (later.attempts.map (·.attemptIndex)).map UInt32.toNat := by
          rw [List.map_map]
          rfl
      _ = (List.range count).map (UInt32.toNat ∘ fun i => UInt32.ofNat (0 + i)) := by
          rw [hindices, List.map_map]
      _ = (List.range count).map id := by
          refine List.map_congr_left fun i hi => ?_
          rw [Function.comp_apply, Nat.zero_add, hsmall i ((List.mem_range.mp hi).trans hcount)]
          rfl
      _ = List.range count := List.map_id _

/-- An attempt over a used buffer against the same attempt over a fresh one; and a generation that
accepts before its last attempt against the same one with a larger budget. -/
theorem attempts_isolated {context : FdContext} (hcontext : context.NeverFails)
    {config : WorldConfig} {content : ContentManifest} (hinputs : InputsValid config content)
    (seed : UInt64) :
    (∀ draws attempt fallback worldBytes buffer s t,
      (emptyWorld config seed content.packs worldBytes).SameFrame buffer →
      SameVerdict
        (fdGenerateCandidate context draws (emptyWorld config seed content.packs worldBytes) attempt
          fallback s).1
        (fdGenerateCandidate context draws buffer attempt fallback t).1) ∧
    ∀ out s report world,
      (fdWorldGenerate context config seed content (some out) s).1 = (some report, .ok world) →
      ∃ count < config.attemptBudget.toNat, report.ListsRejections count ∧
        (count + 1 < config.attemptBudget.toNat → ∀ budget ≥ config.attemptBudget,
          InputsValid { config with attemptBudget := budget } content → ∀ out' t,
          (∀ header ∈ out', fdOutputStructValid header sizeofFdGenerationReport = true) →
          ∃ report' world',
            (fdWorldGenerate context { config with attemptBudget := budget } seed content out'
              t).1 = (out'.map fun _ => report', .ok world') ∧
            report'.ListsRejections count ∧ world.SameGround world') := by
  constructor
  · intro draws attempt fallback worldBytes buffer s t hbuffer
    exact (generateCandidate_isolated hcontext (emptyWorld_boundsHold hinputs worldBytes)
      hbuffer.sameSite attempt fallback s t).sameVerdict
  · intro out s report world hgenerated
    have haccepted := congrArg Prod.snd hgenerated
    have hout := fdWorldGenerate_header haccepted
    obtain ⟨-, hdensity, hsize, -, -⟩ := fdWorldGenerate_ok haccepted
    obtain ⟨u, hran⟩ := fdWorldGenerate_neverFails hcontext seed hinputs hdensity hsize hout s
    rw [hgenerated] at hran
    have hbounds := @emptyWorld_boundsHold config content seed hinputs config.worldSize
    have hbudget : config.attemptBudget.toNat ≤ 64 := hinputs.attemptBudget.2
    obtain ⟨count, hcount, hlater, hlockstep⟩ :=
      runAttempts_accepts hcontext hbounds (concludeGeneration_ok hran.symm)
    refine ⟨count, hcount, listsRejections_of_accepted hlater (by omega), ?_⟩
    intro hearly budget hmore hinputs' out' t hout'
    obtain ⟨u', hran'⟩ :=
      fdWorldGenerate_neverFails hcontext seed hinputs' hdensity hsize hout' t
    have hsite : (emptyWorld config seed content.packs config.worldSize).SameSite
        (emptyWorld { config with attemptBudget := budget } seed content.packs config.worldSize) :=
      ⟨rfl, rfl, rfl, rfl, rfl, rfl⟩
    obtain ⟨report', world', hsecond, hlater', hground⟩ := hlockstep hearly budget.toNat hmore _
      (blankReport { config with attemptBudget := budget } seed content.packs) u' hsite
    refine ⟨report', world', ?_, listsRejections_of_accepted hlater' (by omega), hground⟩
    -- neither the scope of the draws nor the size depends on the budget
    have hscope : (emptyWorld { config with attemptBudget := budget } seed content.packs
        config.worldSize).rngScope =
        (emptyWorld config seed content.packs config.worldSize).rngScope := rfl
    have hbytes : WorldConfig.worldSize { config with attemptBudget := budget } =
        config.worldSize := rfl
    rw [hran', hbytes, hscope, hsecond]
    rfl

/-- Draws that always give the least value. -/
def leastDraws : Draws := ⟨fun _ _ _ _ _ _ => .ok 0, fun _ _ _ _ _ => 0⟩

/-- The sample with a small budget. -/
def frugalConfig : WorldConfig := { sampleConfig with attemptBudget := 8 }

/-- A used buffer for the fourth attempt, and the largest budget in place of the small one. -/
theorem attempts_isolated_sample :
    SameVerdict
      (fdGenerateCandidate sampleContext leastDraws (emptyWorld frugalConfig 7 [] 0) 3 false
        Ledger.zero).1
      (fdGenerateCandidate sampleContext leastDraws
        ((emptyWorld frugalConfig 7 [] 0).setTerrain 40 fdTerrainHills) 3 false Ledger.zero).1 ∧
    ∀ out s report world,
      (fdWorldGenerate sampleContext frugalConfig 7 (contentManifest []) (some out) s).1 =
        (some report, .ok world) →
      ∃ count < 8, report.ListsRejections count ∧ (count + 1 < 8 → ∃ report' world',
        (fdWorldGenerate sampleContext { frugalConfig with attemptBudget := 64 } 7
          (contentManifest []) (some out) s).1 = (some report', .ok world') ∧
        report'.ListsRejections count ∧ world.SameGround world') := by
  have hinputs : InputsValid frugalConfig (contentManifest []) := inputsValid_iff.mp (by decide)
  have hlarge : InputsValid { frugalConfig with attemptBudget := 64 } (contentManifest []) :=
    inputsValid_iff.mp (by decide)
  obtain ⟨hisolated, hbudget⟩ := attempts_isolated sampleContext_neverFails hinputs 7
  refine ⟨hisolated leastDraws 3 false 0 _ Ledger.zero Ledger.zero
    (World.SameFrame.setTerrain _ _ _), fun out s report world hgenerated => ?_⟩
  obtain ⟨count, hcount, hlists, hmore⟩ := hbudget out s report world hgenerated
  refine ⟨count, hcount, hlists, fun hearly => ?_⟩
  have hheader := fdWorldGenerate_header (congrArg Prod.snd hgenerated)
  exact hmore hearly 64 (by decide) hlarge (some out) s hheader

end isolation

end FrontierDirectorate
