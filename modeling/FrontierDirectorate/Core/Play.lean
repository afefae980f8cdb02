import Mathlib
import FrontierDirectorate.Core.ReplayWire
import FrontierDirectorate.Core.StepLaws

/-!
# Playing a list of decisions

Every attempt on a valid world is either accepted, and then the clock moves, or
rejected with a diagnostic that an audit can carry. The transcript of a list of
attempts is what a replay has to say about it.
-/
namespace FrontierDirectorate
open Checks

/-- A diagnostic an audit record can carry whole. -/
structure Fail.Auditable (failure : Fail) : Prop where
  code : fdReplayResultIsAuditable failure.code = true
  field : failure.fieldId ≤ fdFieldAsciiMessage
  short : (asciiBytes failure.message).length < fdDiagMessageBytes
  text : (asciiBytes failure.message).all printableByte = true

instance (failure : Fail) : Decidable failure.Auditable :=
  decidable_of_iff (fdReplayResultIsAuditable failure.code = true ∧
    failure.fieldId ≤ fdFieldAsciiMessage ∧
    (asciiBytes failure.message).length < fdDiagMessageBytes ∧
    (asciiBytes failure.message).all printableByte = true)
    ⟨fun h => ⟨h.1, h.2.1, h.2.2.1, h.2.2.2⟩, fun h => ⟨h.code, h.field, h.short, h.text⟩⟩

/-- Nothing of an auditable diagnostic is cut. -/
theorem Fail.Auditable.diagMessage_eq {failure : Fail} (h : failure.Auditable) :
    diagMessage failure = asciiBytes failure.message :=
  List.take_of_length_le (Nat.le_sub_one_of_lt h.short)

/-- Which item a diagnostic names does not matter. -/
theorem Fail.Auditable.item {code : FdResult} {field : UInt32} {message : String}
    (h : (fdDiagSet code field 0 message).Auditable) (item : UInt32) :
    (fdDiagSet code field item message).Auditable := ⟨h.code, h.field, h.short, h.text⟩

theorem fdActionValidate_auditable (world : World) (actor : FdEntityId) (action : Action) :
    FailsWith Fail.Auditable (fdActionValidate world actor action) := by
  unfold fdActionValidate
  refine failsWith_bind (failsWith_failIf (by decide)) fun _ => ?_
  refine failsWith_bind (failsWith_failIf (by decide)) fun _ => ?_
  refine failsWith_bind (failsWith_failIf (by decide)) fun _ => ?_
  refine failsWith_forEach (fun _ index => failsWith_failIf ?_) _
  exact Fail.Auditable.item (by decide) _

theorem fdJointValidate_auditable (world : World) (decision : JointDecision) :
    FailsWith Fail.Auditable (fdJointValidate world decision) := by
  unfold fdJointValidate
  refine failsWith_bind (failsWith_failIf (by decide)) fun _ => ?_
  refine failsWith_bind (failsWith_failIf (by decide)) fun _ => ?_
  refine failsWith_bind (failsWith_failIf ?_) fun _ => ?_
  · exact Fail.Auditable.item (by decide) _
  refine failsWith_bind (failsWith_failIf (by decide)) fun _ => ?_
  refine failsWith_bind (failsWith_failIf (by decide)) fun _ => ?_
  refine failsWith_forEach (fun _ seat => failsWith_bind (failsWith_failIf ?_) fun _ => ?_) _
  · exact Fail.Auditable.item (by decide) _
  · exact fdActionValidate_auditable world _ _

/-- Why a valid world refuses a decision. -/
def stepRefusal (world : World) (decision : JointDecision) : Option Fail :=
  match fdJointValidate world decision with
  | .error failure => some failure
  | .ok () =>
      if UInt64.ofNat uint64Max - fdOperationalTicks < world.tick then
        some (fdDiagSet fdErrCapacity fdFieldTick 0 "tick counter would overflow")
      else none

theorem stepRefusal_auditable {world : World} {decision : JointDecision} {failure : Fail}
    (h : stepRefusal world decision = some failure) : failure.Auditable := by
  unfold stepRefusal at h
  split at h
  · next failure' hjoint =>
      cases h
      exact fdJointValidate_auditable world decision failure hjoint
  · split at h
    · cases h
      decide
    · cases h

section valid

variable {world : World} {decision : JointDecision}

theorem stepRefusal_eq_none_iff (hvalid : world.Valid) :
    stepRefusal world decision = none ↔ StepAccepts world decision := by
  unfold stepRefusal
  constructor
  · intro h
    split at h
    · cases h
    · next hjoint =>
        split at h
        · cases h
        · next hclock =>
            exact ⟨fdJointValidate_eq_ok_iff.mp hjoint, UInt64.not_lt.mp hclock, hvalid⟩
  · intro h
    rw [fdJointValidate_eq_ok_iff.mpr h.joint]
    exact if_neg (UInt64.not_lt.mpr h.clock)

/-- The step of the core on a valid world, in one line. -/
theorem fdWorldStep_of_valid (hvalid : world.Valid) :
    fdWorldStep world decision stepOut =
      match stepRefusal world decision with
      | some failure => (world, .error failure)
      | none => (stepWorld world, .ok (acceptedResult world decision)) := by
  cases hrefusal : stepRefusal world decision with
  | none => exact fdWorldStep_accepted (by decide) ((stepRefusal_eq_none_iff hvalid).mp hrefusal)
  | some failure =>
      have hout : ¬ ¬ fdOutputStructValid stepOut sizeofFdStepResult = true := by decide
      unfold stepRefusal at hrefusal
      rw [fdWorldStep, if_neg hout]
      cases hjoint : fdJointValidate world decision with
      | error failure' =>
          rw [hjoint] at hrefusal
          cases hrefusal
          rfl
      | ok _ =>
          simp only [hjoint] at hrefusal ⊢
          split at hrefusal
          · next hclock =>
              cases hrefusal
              exact if_pos hclock
          · cases hrefusal

theorem valid_stepWorld (hvalid : world.Valid) : (stepWorld world).Valid :=
  SameMap.valid_of_valid (v := world) ⟨rfl, rfl, rfl, rfl, rfl⟩ rfl rfl rfl hvalid

end valid

end FrontierDirectorate
