import Mathlib
import FrontierDirectorate.Contract.Candidates

/-!
# The fallback

The last attempt of a generation supplies missing terrain. Its road it takes as it comes:
when the cheapest road meets the river twice, the last attempt is rejected as well.
-/
namespace FrontierDirectorate
open Checks ShortestPath Accounting

section promise

variable {context : FdContext} {draws : Draws} {config : WorldConfig} {content : ContentManifest}
  {seed : UInt64}

end promise

section detour

/-- Where the draws below lay grass: a row behind the river and a column that leads back. -/
def meadow (i : Nat) : Bool :=
  i % 32 == 29 || (i / 32 == 1 && decide (i % 32 < 30)) || i == 106

/-- Draws that always give the least value, but the greatest for the ground of a meadow. -/
def meadowDraws : Draws where
  bounded := fun _ subject _ _ site bound =>
    .ok (if site = fdRngSiteBiomeTile ∧ meadow subject.toNat then bound - 1 else 0)
  word := fun _ _ _ _ _ => 0

/-- The sample with the fallback as its one attempt. -/
def soloConfig : WorldConfig := { sampleConfig with attemptBudget := 1 }

/-- The plan that these draws make. -/
def meadowPlan : CandidatePlan := ⟨true, 2, 2, 0⟩

variable {waterWidth : Nat → Nat} {world : World}

/-- The map of these draws before its road. -/
structure MeadowMap (waterWidth : Nat → Nat) (world : World) : Prop
    extends CandidateMap meadowDraws 0 true meadowPlan waterWidth world where
  config : world.config = soloConfig

namespace MeadowMap

theorem sizes (h : MeadowMap waterWidth world) :
    world.width = 32 ∧ world.height = 16 ∧ world.tileCount = 512 := by
  have hwidth : world.width = 32 := congrArg (fun config => config.width.toNat) h.config
  have hheight : world.height = 16 := congrArg (fun config => config.height.toNat) h.config
  refine ⟨hwidth, hheight, ?_⟩
  rw [h.bounds.tileCount_eq, hwidth, hheight]

theorem places (h : MeadowMap waterWidth world) : world.harbourIndex meadowPlan = 105 ∧
    world.marketIndex meadowPlan = 445 ∧
    world.chosenTiles meadowPlan = [105, 445, 115, 444, 443] := by
  obtain ⟨hwidth, hheight, -⟩ := h.sizes
  unfold World.chosenTiles World.harbourIndex World.marketIndex World.baseWaterWidth World.inlandX
    World.inlandY
  rw [hwidth, hheight]
  decide

end MeadowMap

namespace MeadowMap

theorem settlement (h : MeadowMap waterWidth world) {i : Nat} (hi : i = 105 ∨ i = 445) :
    world.terrain i = fdTerrainSettlement := by
  obtain ⟨-, -, hsize⟩ := h.sizes
  obtain ⟨hharbour, hmarket, -⟩ := h.places
  refine (h.settled i (by omega)).mpr ?_
  rw [hharbour, hmarket]
  exact hi

end MeadowMap

namespace MeadowMap

theorem mem_neighbors (h : MeadowMap waterWidth world) {i j : Nat} (hi : i < 512) :
    j ∈ neighbors 32 16 i ↔ j < 512 ∧ world.Adjacent i j := by
  obtain ⟨hwidth, hheight, hsize⟩ := h.sizes
  have hmem : j ∈ world.neighbors i ↔ j < world.tileCount ∧ world.Adjacent i j :=
    h.bounds.mem_neighbors (hsize.symm ▸ hi)
  rw [World.neighbors, hwidth, hheight, hsize] at hmem
  exact hmem

end MeadowMap

end detour

end FrontierDirectorate
