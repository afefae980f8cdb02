import Mathlib
import FrontierDirectorate.Contract.Saves
import FrontierDirectorate.Core.ActionMask

/-!
# Actions

The step, the validator and the mask agree on what a seat may do, and what is
refused leaves no trace.
-/
namespace FrontierDirectorate

/-- What the interface asks of one action of an actor. -/
structure ActionLegal (world : World) (actor : FdEntityId) (action : Action) : Prop where
  header : fdInputStructValid action.header sizeofFdAction = true
  parameterCount : action.parameterCount = 0
  parameters : ∀ index, action.parameters.get index = 0
  category : MaskAllows world actor action.category

/-- What the interface asks of a joint decision. -/
structure DecisionLegal (world : World) (decision : JointDecision) : Prop where
  header : fdInputStructValid decision.header sizeofFdJointDecision = true
  reserved : decision.reserved = 0
  seatCount : decision.seatCount = 2
  tick : decision.expectedTick = world.tick
  hash : decision.expectedPreStateSha256 = world.stateSha256
  actor : ∀ seat, (decision.seats.get seat).actorId = world.region.foreignFactionIds.get seat
  action : ∀ seat, ActionLegal world (decision.seats.get seat).actorId (decision.seats.get seat).action

/-- A step as its caller sees it: the world and the output struct after the call, and the result. -/
def fdWorldStepInto (world : World) (decision : JointDecision) (out : StepResult) :
    World × StepResult × Except Fail Unit :=
  match fdWorldStep world decision ⟨out.structSize, out.abiVersion⟩ with
  | (world, .ok result) => (world, result, .ok ())
  | (world, .error failure) => (world, out, .error failure)

variable {world : World} {decision : JointDecision} {out : StepResult}

theorem fdActionValidate_iff_legal (actor : FdEntityId) (action : Action) :
    fdActionValidate world actor action = .ok () ↔ ActionLegal world actor action := by
  rw [fdActionValidate_eq_ok_iff]
  constructor
  · rintro ⟨hheader, hforeign, ⟨hcategory, hcount⟩, hparameters⟩
    exact ⟨hheader, hcount, hparameters, (maskAllows_iff _).mpr ⟨hforeign, hcategory⟩⟩
  · intro h
    obtain ⟨hforeign, hcategory⟩ := (maskAllows_iff _).mp h.category
    exact ⟨h.header, hforeign, ⟨hcategory, h.parameterCount⟩, h.parameters⟩

theorem jointValid_iff_legal : JointValid world decision ↔ DecisionLegal world decision := by
  constructor
  · intro h
    refine ⟨h.header, h.reserved, h.seatCount, h.tick, h.hash, h.actor, fun seat => ?_⟩
    refine ⟨h.actionHeader seat, h.parameterCount seat, h.parameters seat,
      (maskAllows_iff _).mpr ⟨?_, h.category seat⟩⟩
    rw [h.actor seat]
    exact foreign_of_eq seat
  · intro h
    exact ⟨h.header, h.reserved, h.seatCount, h.tick, h.hash, h.actor,
      fun seat => (h.action seat).header,
      fun seat => ((maskAllows_iff _).mp (h.action seat).category).2,
      fun seat => (h.action seat).parameterCount, fun seat => (h.action seat).parameters⟩

/-- On a valid world whose clock has room, a step with a well-formed output is accepted exactly when
the decision is what the interface asks for, the single-action validator asks for the same, every
mask of an actor says the same, and a step that is refused changes nothing. -/
theorem step_accepts_iff_legal (hvalid : world.Valid)
    (hclock : world.tick ≤ UInt64.ofNat uint64Max - fdOperationalTicks) :
    (∀ decision out, fdOutputStructValid ⟨out.structSize, out.abiVersion⟩ sizeofFdStepResult = true →
        ((fdWorldStepInto world decision out).2.2 = .ok () ↔ DecisionLegal world decision)) ∧
      (∀ actor action, fdActionValidate world actor action = .ok () ↔
        ActionLegal world actor action) ∧
      (∀ actor query out mask, out.Backed →
        fdActionMaskQuery world actor query out = (mask, .ok ()) →
        ∀ category, mask.allows category = true ↔ MaskAllows world actor category) ∧
      ∀ decision out failure, (fdWorldStepInto world decision out).2.2 = .error failure →
        fdWorldStepInto world decision out = (world, out, .error failure) := by
  refine ⟨fun decision out hout => ?_, fdActionValidate_iff_legal, ?_, ?_⟩
  · rw [← jointValid_iff_legal]
    by_cases haccepts : StepAccepts world decision
    · rw [fdWorldStepInto, fdWorldStep_accepted hout haccepts]
      exact iff_of_true rfl haccepts.joint
    · obtain ⟨failure, hrejected⟩ : ∃ failure, fdWorldStep world decision
          ⟨out.structSize, out.abiVersion⟩ = (world, .error failure) :=
        fdWorldStep_rejected fun h => haccepts h.2
      rw [fdWorldStepInto, hrejected]
      exact iff_of_false (fun h => by cases h) fun hjoint => haccepts ⟨hjoint, hclock, hvalid⟩
  · intro actor query out mask hbacked hquery category
    rw [allows_iff hbacked hquery, maskAllows_iff]
    exact ⟨fun h => ⟨(fdActionMaskQuery_eq_ok hquery).1, h⟩, fun h => h.2⟩
  · intro decision out failure h
    rcases fdWorldStep_cases world decision ⟨out.structSize, out.abiVersion⟩ with
      ⟨-, -, hstep⟩ | ⟨failure', hstep⟩
    · rw [fdWorldStepInto, hstep] at h
      cases h
    · rw [fdWorldStepInto, hstep] at h ⊢
      cases h
      rfl

theorem step_accepts_iff_legal_sample :
    (∀ decision out, fdOutputStructValid ⟨out.structSize, out.abiVersion⟩ sizeofFdStepResult = true →
        ((fdWorldStepInto (sampleAt 0) decision out).2.2 = .ok () ↔
          DecisionLegal (sampleAt 0) decision)) ∧
      (∀ actor action, fdActionValidate (sampleAt 0) actor action = .ok () ↔
        ActionLegal (sampleAt 0) actor action) ∧
      (∀ actor query out mask, out.Backed →
        fdActionMaskQuery (sampleAt 0) actor query out = (mask, .ok ()) →
        ∀ category, mask.allows category = true ↔ MaskAllows (sampleAt 0) actor category) ∧
      ∀ decision out failure, (fdWorldStepInto (sampleAt 0) decision out).2.2 = .error failure →
        fdWorldStepInto (sampleAt 0) decision out = (sampleAt 0, out, .error failure) :=
  step_accepts_iff_legal (@sampleAt_sound 0 rfl).valid (by decide)

end FrontierDirectorate
