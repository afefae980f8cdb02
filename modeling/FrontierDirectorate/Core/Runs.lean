import Mathlib
import FrontierDirectorate.Core.GenerateLaws
import FrontierDirectorate.Core.StepLaws

/-!
# Created worlds and runs of steps

Where a live world comes from, and what any number of accepted steps makes of it.
-/
namespace FrontierDirectorate

/-- The context with another allocator callback; calls made earlier saw that one. -/
def FdContext.allocating (context : FdContext) (allocate : Nat → UInt64 → Bool) : FdContext :=
  { context with allocate := allocate }

/-- The worlds that generation and loading publish, whatever the allocator did meanwhile. -/
inductive Created (context : FdContext) : World → Prop
  | generated {allocate : Nat → UInt64 → Bool} {config : WorldConfig} {seed : UInt64}
      {content : ContentManifest} {out : Option StructHeader} {s : Ledger} {world : World}
      (h : (fdWorldGenerate (context.allocating allocate) config seed content out s).1.2 =
        .ok world) : Created context world
  | loaded {allocate : Nat → UInt64 → Bool} {bytes : List UInt8} {s : Ledger} {world : World}
      (h : (fdWorldLoad (context.allocating allocate) bytes s).1 = .ok world) :
      Created context world

/-- The last tick a step starts from; the loader takes no later one either. -/
abbrev lastStepTick : UInt64 := UInt64.ofNat uint64Max - fdOperationalTicks

theorem lastStepTick_toNat : lastStepTick.toNat = 18446744073709551591 := rfl

theorem World.Sound.of_allocating {context : FdContext} {allocate : Nat → UInt64 → Bool}
    {world : World} (h : world.Sound (context.allocating allocate)) : world.Sound context :=
  ⟨h.config, h.inputs, h.densities, h.liveBound, h.allocation, h.configDigest, h.contentDigest,
    h.stateHash, h.tick, h.valid, h.names⟩

/-- A created world is sound and can take a step. -/
theorem Created.sound {context : FdContext} {world : World} (h : Created context world) :
    world.Sound context ∧ world.tick ≤ lastStepTick := by
  cases h with
  | generated h =>
      obtain ⟨hsound, htick⟩ := sound_of_generate h
      refine ⟨hsound.of_allocating, ?_⟩
      rw [htick]
      decide
  | loaded h =>
      obtain ⟨hsound, htick⟩ := (fdWorldLoad_loadsTo h).sound
      exact ⟨hsound.of_allocating, htick⟩

/-- Accepted steps in a row, with the worlds at which they were taken. -/
inductive AcceptedRun : World → List World → World → Prop
  | nil (world : World) : AcceptedRun world [] world
  | cons {world next last : World} {visited : List World} {decision : JointDecision}
      {out : StructHeader} {result : StepResult}
      (step : fdWorldStep world decision out = (next, .ok result))
      (rest : AcceptedRun next visited last) : AcceptedRun world (world :: visited) last

/-- What an accepted call says about the state before it. -/
theorem accepted_of_ok {world next : World} {decision : JointDecision} {out : StructHeader}
    {result : StepResult} (h : fdWorldStep world decision out = (next, .ok result)) :
    StepAccepts world decision ∧ next = stepWorld world ∧ result = acceptedResult world decision := by
  rcases fdWorldStep_cases world decision out with ⟨-, haccepts, hstep⟩ | ⟨failure, hstep⟩
  · rw [h] at hstep
    cases hstep
    exact ⟨haccepts, rfl, rfl⟩
  · rw [h] at hstep
    cases hstep

namespace AcceptedRun

variable {context : FdContext} {first last : World} {visited : List World}

theorem sound (hrun : AcceptedRun first visited last) (h : first.Sound context) :
    last.Sound context := by
  induction hrun with
  | nil world => exact h
  | cons step rest ih =>
      obtain ⟨haccepts, rfl, -⟩ := accepted_of_ok step
      exact ih (Sound.stepWorld h haccepts.clock)

/-- The clock counts the steps, and does not wrap. -/
theorem tick (hrun : AcceptedRun first visited last) :
    last.tick.toNat = first.tick.toNat + 24 * visited.length := by
  induction hrun with
  | nil world => rfl
  | cons step rest ih =>
      obtain ⟨haccepts, rfl, -⟩ := accepted_of_ok step
      rw [ih, stepWorld_tick, tick_add haccepts.clock, List.length_cons]
      omega

/-- A run ends at a tick from which a step can be taken exactly when each of its steps leaves
room for one more. -/
theorem last_tick_le_iff (hrun : AcceptedRun first visited last) (h : first.tick ≤ lastStepTick) :
    last.tick ≤ lastStepTick ↔ ∀ world ∈ visited, world.tick ≤ lastStepTick - fdOperationalTicks := by
  have hbound : (lastStepTick - fdOperationalTicks).toNat = 18446744073709551567 := rfl
  induction hrun with
  | nil world => simpa using h
  | @cons world next last visited decision out result step rest ih =>
      obtain ⟨haccepts, rfl, -⟩ := accepted_of_ok step
      have hnext : (stepWorld world).tick.toNat = world.tick.toNat + 24 := tick_add haccepts.clock
      rw [List.forall_mem_cons]
      by_cases hroom : world.tick ≤ lastStepTick - fdOperationalTicks
      · have hle : (stepWorld world).tick ≤ lastStepTick := by
          rw [UInt64.le_iff_toNat_le, hbound] at hroom
          rw [UInt64.le_iff_toNat_le, hnext, lastStepTick_toNat]
          omega
        exact (ih hle).trans ⟨fun hvisited => ⟨hroom, hvisited⟩, fun hall => hall.2⟩
      · have hlate : lastStepTick < (stepWorld world).tick := by
          rw [UInt64.le_iff_toNat_le, hbound] at hroom
          rw [UInt64.lt_iff_toNat_lt, hnext, lastStepTick_toNat]
          omega
        have hend : ¬ last.tick ≤ lastStepTick := by
          have hlast := rest.tick
          rw [UInt64.lt_iff_toNat_lt] at hlate
          rw [UInt64.le_iff_toNat_le]
          omega
        exact ⟨fun hle => absurd hle hend, fun hall => absurd hall.1 hroom⟩

end AcceptedRun

end FrontierDirectorate
