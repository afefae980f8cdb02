import Mathlib
import FrontierDirectorate.Core.StepLaws

/-!
# A world at another tick

Steps touch the clock and the state digest only, so every state of a live world is
its first one at another tick.
-/
namespace FrontierDirectorate

/-- The world with its clock set and its digest refreshed. -/
def World.atTick (world : World) (tick : UInt64) : World :=
  fdWorldComputeHash { world with tick := tick }

@[simp] theorem World.atTick_tick (world : World) (tick : UInt64) : (world.atTick tick).tick = tick :=
  rfl

theorem stepWorld_eq_atTick (world : World) :
    stepWorld world = world.atTick (world.tick + fdOperationalTicks) := rfl

/-- Only the last setting of the clock counts. -/
theorem World.atTick_atTick (world : World) (tick later : UInt64) :
    (world.atTick tick).atTick later = world.atTick later := by
  have hdigest : ((world.atTick tick).atTick later).stateSha256 =
      (world.atTick later).stateSha256 := stateDigest_congr rfl rfl rfl rfl rfl rfl rfl
  change { world.atTick later with
    stateSha256 := ((world.atTick tick).atTick later).stateSha256 } = world.atTick later
  rw [hdigest]

theorem World.reloaded_atTick (world : World) (tick : UInt64) :
    world.reloaded.atTick tick = (world.atTick tick).reloaded := by
  have hdigest : (world.reloaded.atTick tick).stateSha256 = (world.atTick tick).stateSha256 :=
    stateDigest_congr rfl rfl rfl rfl rfl rfl rfl
  change { (world.atTick tick).reloaded with
    stateSha256 := (world.reloaded.atTick tick).stateSha256 } = (world.atTick tick).reloaded
  rw [hdigest]
  rfl

section sound

variable {context : FdContext} {world : World}

theorem World.Sound.atTick_self (h : world.Sound context) : world.atTick world.tick = world := by
  have hdigest : (world.atTick world.tick).stateSha256 = world.stateSha256 :=
    (stateDigest_congr rfl rfl rfl rfl rfl rfl rfl).trans h.stateHash.symm
  change { world with stateSha256 := (world.atTick world.tick).stateSha256 } = world
  rw [hdigest]

theorem valid_atTick (h : world.Valid) (tick : UInt64) : (world.atTick tick).Valid :=
  SameMap.valid_of_valid (v := world) ⟨rfl, rfl, rfl, rfl, rfl⟩ rfl rfl rfl h

theorem World.Sound.atTick (h : world.Sound context) {tick : UInt64}
    (htick : tick % fdOperationalTicks = 0) : (world.atTick tick).Sound context where
  config := h.config
  inputs := h.inputs
  densities := h.densities
  liveBound := h.liveBound
  allocation := h.allocation
  configDigest := h.configDigest
  contentDigest := h.contentDigest
  stateHash := (stateDigest_computeHash _).symm
  tick := htick
  valid := valid_atTick h.valid tick
  names := h.names

/-- The fields a load clears are not part of soundness. -/
theorem World.Sound.reloaded (h : world.Sound context) : world.reloaded.Sound context where
  config := h.config
  inputs := h.inputs
  densities := h.densities
  liveBound := h.liveBound
  allocation := h.allocation
  configDigest := h.configDigest
  contentDigest := h.contentDigest
  stateHash := h.stateHash.trans (stateDigest_congr rfl rfl rfl rfl rfl rfl rfl)
  tick := h.tick
  valid := SameMap.valid_of_valid (v := world) ⟨rfl, rfl, rfl, rfl, rfl⟩ rfl rfl rfl h.valid
  names := h.names

end sound

end FrontierDirectorate
