import Mathlib
import FrontierDirectorate.Core.Types
import FrontierDirectorate.Lib.Checks

/-!
# Generation inputs

`fd_world_config_init` and `fd_validate_generation_inputs_internal`.
-/
namespace FrontierDirectorate
open Checks

def fdWorldConfigInit : WorldConfig where
  structSize := sizeofFdWorldConfig
  abiVersion := fdAbiVersion
  width := 48
  height := 24
  attemptBudget := fdMaxGenerationAttempts
  generatorVersion := fdGeneratorVersion
  rulesetVersion := fdRulesetVersion
  forestDensityPpm := 220000
  hillDensityPpm := 120000
  wetlandDensityPpm := 80000
  referenceMode := 1
  reserved := List.Vector.replicate 8 0

def fdConfigReservedZero (config : WorldConfig) : Bool := config.reserved.toList.all (· == 0)

/-- The first pack that is zero or not above its predecessor. -/
def firstUnsortedPack : (previous : Option UInt64) → (index : Nat) → List ContentPack → Option Nat
  | _, _, [] => none
  | previous, index, pack :: packs =>
      if pack.stableId = 0 ∨ previous.any (pack.stableId ≤ ·) then some index
      else firstUnsortedPack (some pack.stableId) (index + 1) packs

def fdValidateGenerationInputsInternal (config : WorldConfig) (content : ContentManifest) :
    Except Fail Unit := do
  failIf (¬ fdInputStructValid config.header sizeofFdWorldConfig)
    (fdDiagSet fdErrInvalidSize fdFieldStructSize 0 "invalid world configuration size or ABI")
  failIf (¬ fdConfigReservedZero config)
    (fdDiagSet fdErrInvalidArgument fdFieldReserved 0
      "world configuration reserved fields must be zero")
  failIf (config.width < fdMinWidth ∨ fdMaxWidth < config.width)
    (fdDiagSet fdErrOutOfRange fdFieldWidth config.width "world width is outside 32..256")
  failIf (config.height < fdMinHeight ∨ fdMaxHeight < config.height)
    (fdDiagSet fdErrOutOfRange fdFieldHeight config.height "world height is outside 16..128")
  failIf (fdMaxTiles < config.width.toNat * config.height.toNat)
    (fdDiagSet fdErrCapacity fdFieldWidth 0 "world tile count exceeds 32768")
  failIf (config.attemptBudget = 0 ∨ fdMaxGenerationAttempts < config.attemptBudget)
    (fdDiagSet fdErrOutOfRange fdFieldAttemptBudget config.attemptBudget
      "attempt budget is outside 1..64")
  failIf (config.generatorVersion ≠ fdGeneratorVersion ∨
      config.rulesetVersion ≠ fdRulesetVersion)
    (fdDiagSet fdErrVersion fdFieldFormatVersion 0 "unsupported generator or ruleset version")
  failIf (config.referenceMode ≠ 1)
    (fdDiagSet fdErrOutOfRange fdFieldReserved 0 "U01 requires reference mode 1")
  let densitySum := config.forestDensityPpm.toNat + config.hillDensityPpm.toNat +
    config.wetlandDensityPpm.toNat
  failIf (1000000 < config.forestDensityPpm ∨ 1000000 < config.hillDensityPpm ∨
      1000000 < config.wetlandDensityPpm ∨ 900000 < densitySum)
    (fdDiagSet fdErrOutOfRange fdFieldTerrainDensity 0
      "terrain densities are outside bounded ranges")
  failIf (¬ fdInputStructValid content.header sizeofFdContentManifest)
    (fdDiagSet fdErrInvalidSize fdFieldContent 0 "invalid content manifest size or ABI")
  failIf (content.reserved ≠ 0 ∨ fdMaxContentPacks < content.packs.length)
    (fdDiagSet fdErrInvalidArgument fdFieldContent 0 "invalid bounded content manifest")
  match firstUnsortedPack none 0 content.packs with
  | some index => .error (fdDiagSet fdErrInvalidArgument fdFieldContent (UInt32.ofNat index)
      "content pack IDs must be nonzero and sorted")
  | none => .ok ()

/-- Accepted inputs, condition by condition. -/
structure InputsValid (config : WorldConfig) (content : ContentManifest) : Prop where
  configHeader : fdInputStructValid config.header sizeofFdWorldConfig = true
  reserved : fdConfigReservedZero config = true
  width : fdMinWidth ≤ config.width ∧ config.width ≤ fdMaxWidth
  height : fdMinHeight ≤ config.height ∧ config.height ≤ fdMaxHeight
  tiles : config.width.toNat * config.height.toNat ≤ fdMaxTiles
  attemptBudget : config.attemptBudget ≠ 0 ∧ config.attemptBudget ≤ fdMaxGenerationAttempts
  versions : config.generatorVersion = fdGeneratorVersion ∧
    config.rulesetVersion = fdRulesetVersion
  referenceMode : config.referenceMode = 1
  densities : config.forestDensityPpm ≤ 1000000 ∧ config.hillDensityPpm ≤ 1000000 ∧
    config.wetlandDensityPpm ≤ 1000000 ∧ config.forestDensityPpm.toNat +
      config.hillDensityPpm.toNat + config.wetlandDensityPpm.toNat ≤ 900000
  contentHeader : fdInputStructValid content.header sizeofFdContentManifest = true
  contentBound : content.reserved = 0 ∧ content.packs.length ≤ fdMaxContentPacks
  sorted : firstUnsortedPack none 0 content.packs = none

theorem inputsValid_iff {config : WorldConfig} {content : ContentManifest} :
    fdValidateGenerationInputsInternal config content = .ok () ↔ InputsValid config content := by
  simp only [fdValidateGenerationInputsInternal, failIf_bind_eq_ok, not_or, not_lt, not_not,
    UInt32.not_lt, ne_eq]
  constructor
  · rintro ⟨h1, h2, h3, h4, h5, h6, h7, h8, h9, h10, h11, h12⟩
    split at h12
    · cases h12
    · next hsorted => exact ⟨h1, h2, h3, h4, h5, h6, h7, h8, h9, h10, h11, hsorted⟩
  · rintro ⟨h1, h2, h3, h4, h5, h6, h7, h8, h9, h10, h11, h12⟩
    refine ⟨h1, h2, h3, h4, h5, h6, h7, h8, h9, h10, h11, ?_⟩
    rw [h12]

end FrontierDirectorate
