import Mathlib
import FrontierDirectorate.Core.Hash
import FrontierDirectorate.Core.Validate
import FrontierDirectorate.Lib.Checks

/-!
# Operational steps

`fd_action_validate`, `fd_joint_validate` and `fd_world_step`. A step runs 24
local ticks of 23 phases each; an error inside the loops leaves with the world as
it is at that point.
-/
namespace FrontierDirectorate
open Checks

def fdIsForeignActor (world : World) (actor : FdEntityId) : Bool :=
  actor == world.region.foreignFactionIds.get 0 || actor == world.region.foreignFactionIds.get 1

def fdActionValidate (world : World) (actor : FdEntityId) (action : Action) :
    Except Fail Unit := do
  failIf (¬ fdInputStructValid action.header sizeofFdAction)
    (fdDiagSet fdErrInvalidSize fdFieldStructSize 0 "invalid action size or ABI")
  failIf (¬ fdIsForeignActor world actor)
    (fdDiagSet fdErrOutOfRange fdFieldEntityId 0 "actor is not a U01 decision seat")
  failIf (action.category ≠ fdActionPass ∨ action.parameterCount ≠ 0)
    (fdDiagSet fdErrInvalidAction fdFieldAction 0 "PASS with no parameters is the only U01 action")
  forEach (List.finRange 4) (fun () index =>
    failIf (action.parameters.get index ≠ 0)
      (fdDiagSet fdErrInvalidAction fdFieldAction (UInt32.ofNat index.val)
        "unused PASS parameters must be zero")) ()

def fdJointValidate (world : World) (decision : JointDecision) : Except Fail Unit := do
  failIf (¬ fdInputStructValid decision.header sizeofFdJointDecision)
    (fdDiagSet fdErrInvalidSize fdFieldStructSize 0 "invalid joint decision size or ABI")
  failIf (decision.reserved ≠ 0)
    (fdDiagSet fdErrInvalidArgument fdFieldReserved 0 "joint decision reserved field must be zero")
  failIf (decision.seatCount ≠ fdU01SeatCount)
    (fdDiagSet fdErrInvalidAction fdFieldSeatCount decision.seatCount
      "exactly two explicit seats are required")
  failIf (decision.expectedTick ≠ world.tick)
    (fdDiagSet fdErrInvalidAction fdFieldTick 0 "joint decision expected tick does not match")
  failIf (decision.expectedPreStateSha256 ≠ world.stateSha256)
    (fdDiagSet fdErrInvalidAction fdFieldAction 0 "joint decision pre-state hash does not match")
  forEach (List.finRange 2) (fun () seat => do
    failIf ((decision.seats.get seat).actorId ≠ world.region.foreignFactionIds.get seat)
      (fdDiagSet fdErrInvalidAction fdFieldEntityId (UInt32.ofNat seat.val)
        "seat actor IDs must be complete and canonical")
    fdActionValidate world (decision.seats.get seat).actorId (decision.seats.get seat).action) ()

structure EntityTraceEntry where
  localTick : UInt32
  phaseId : UInt32
  entityId : FdEntityId
deriving DecidableEq, Repr

/-- The traces hold the entries written so far, in index order. -/
structure StepResult where
  structSize : UInt32
  abiVersion : UInt32
  tickBefore : UInt64
  tickAfter : UInt64
  acceptedActionCount : UInt32
  rewardCount : UInt32
  phaseCount : UInt32
  phaseIds : List UInt32
  localTickCount : UInt32
  phaseTraceCount : UInt32
  phaseTrace : List UInt32
  actorTraceCount : UInt32
  actorTrace : List.Vector FdEntityId 2
  entityTrace : List EntityTraceEntry
  transitionStaged : UInt32
  transitionStagePhase : UInt32
  stateHashPhase : UInt32
  rngDomainCount : UInt32
  transitionStageTraceIndex : UInt32
  stateHashTraceIndex : UInt32
  stagedTickBefore : UInt64
  stagedTickAfter : UInt64
  stagedDecision : JointDecision
  stagedPreStateSha256 : Digest
  stagedDecisionSha256 : Digest
  stagedEventSha256 : Digest
  finalizedPostStateSha256 : Digest
  preStateSha256 : Digest
  postStateSha256 : Digest
  eventSha256 : Digest

def Digest.zero : Digest := List.Vector.replicate 32 0

/-- Zero-filled memory. -/
def Action.zero : Action := ⟨0, 0, 0, 0, List.Vector.replicate 4 0⟩

def JointDecision.zero : JointDecision :=
  ⟨0, 0, 0, 0, 0, Digest.zero, List.Vector.replicate 2 ⟨0, Action.zero⟩⟩

/-- The headers a staged decision carries. -/
def Action.staged (action : Action) : Action :=
  { action with structSize := sizeofFdAction, abiVersion := fdAbiVersion }

def JointDecision.staged (decision : JointDecision) : JointDecision :=
  { decision with
    structSize := sizeofFdJointDecision
    abiVersion := fdAbiVersion
    seats := decision.seats.map fun seat => { seat with action := seat.action.staged } }

/-- The result before the first local tick. -/
def StepResult.start (world : World) (decision : JointDecision) : StepResult where
  structSize := sizeofFdStepResult
  abiVersion := fdAbiVersion
  tickBefore := world.tick
  tickAfter := world.tick + fdOperationalTicks
  acceptedActionCount := fdU01SeatCount
  rewardCount := 0
  phaseCount := UInt32.ofNat fdU01PhaseCount
  phaseIds := (List.range fdU01PhaseCount).map fun phase => UInt32.ofNat (phase + 1)
  localTickCount := fdOperationalTicks.toUInt32
  phaseTraceCount := UInt32.ofNat fdU01PhaseTraceCount
  phaseTrace := []
  actorTraceCount := fdU01SeatCount
  actorTrace := world.region.foreignFactionIds
  entityTrace := []
  transitionStaged := 0
  transitionStagePhase := 0
  stateHashPhase := 0
  rngDomainCount := 0
  transitionStageTraceIndex := 0
  stateHashTraceIndex := 0
  stagedTickBefore := 0
  stagedTickAfter := 0
  stagedDecision := JointDecision.zero
  stagedPreStateSha256 := Digest.zero
  stagedDecisionSha256 := fdHashJointDecisionInternal decision
  stagedEventSha256 := Digest.zero
  finalizedPostStateSha256 := Digest.zero
  preStateSha256 := world.stateSha256
  postStateSha256 := Digest.zero
  eventSha256 := fdSha256 []

namespace StepResult

def tracePhase (result : StepResult) (phase : Nat) : StepResult :=
  { result with phaseTrace := result.phaseTrace ++ [UInt32.ofNat (phase + 1)] }

def traceEntities (result : StepResult) (localTick : Nat) (phaseId : UInt32)
    (ids : List FdEntityId) : StepResult :=
  { result with entityTrace :=
      result.entityTrace ++ ids.map (EntityTraceEntry.mk (UInt32.ofNat localTick) phaseId) }

/-- Phase 22 of the last local tick. -/
def stage (result : StepResult) (decision : JointDecision) (traceIndex : Nat) : StepResult :=
  { result with
    transitionStaged := 1
    transitionStagePhase := 22
    transitionStageTraceIndex := UInt32.ofNat traceIndex
    stagedTickBefore := result.tickBefore
    stagedTickAfter := result.tickAfter
    stagedDecision := decision.staged
    stagedPreStateSha256 := result.preStateSha256
    stagedEventSha256 := result.eventSha256 }

end StepResult

/-- What the loops carry: the world and the result under construction. -/
abbrev StepState := World × StepResult

/-- One phase of one local tick. -/
def stepPhase (decision : JointDecision) (localTick : Nat) (s : StepState) (phase : Nat) :
    Except (World × Fail) StepState :=
  let traceIndex := localTick * fdU01PhaseCount + phase
  let world := s.1
  let result := s.2.tracePhase phase
  if phase = 0 then
    let result := result.traceEntities localTick 1 (world.entities.toList.map Entity.id)
    if localTick = 0 then
      match (fdWorldValidateInternal world).result with
      | .error failure => .error (world, failure)
      | .ok () => .ok (world, result)
    else .ok (world, result)
  else if localTick = 0 ∧ phase = 1 then
    .ok (world, result.traceEntities 0 2 (decision.seats.toList.map SeatDecision.actorId))
  else if localTick + 1 = fdOperationalTicks.toNat ∧ phase = 21 then
    .ok (world, result.stage decision traceIndex)
  else if phase = 22 then
    let world := { world with tick := world.tick + 1 }
    if localTick + 1 = fdOperationalTicks.toNat then
      let world := fdWorldComputeHash world
      .ok (world, { result with
        stateHashPhase := 23
        stateHashTraceIndex := UInt32.ofNat traceIndex
        finalizedPostStateSha256 := world.stateSha256 })
    else .ok (world, result)
  else .ok (world, result)

def stepLocalTick (decision : JointDecision) (s : StepState) (localTick : Nat) :
    Except (World × Fail) StepState :=
  forEach (List.range fdU01PhaseCount) (stepPhase decision localTick) s

def stepLoop (world : World) (decision : JointDecision) : Except (World × Fail) StepState :=
  forEach (List.range fdOperationalTicks.toNat) (stepLocalTick decision)
    (world, StepResult.start world decision)

/-- The world after the call and what it reports; `out` is the header of the result struct. -/
def fdWorldStep (world : World) (decision : JointDecision) (out : StructHeader) :
    World × Except Fail StepResult :=
  if ¬ fdOutputStructValid out sizeofFdStepResult then
    (world, .error (fdDiagSet fdErrInvalidSize fdFieldStructSize 0 "invalid step result output"))
  else
    match fdJointValidate world decision with
    | .error failure => (world, .error failure)
    | .ok () =>
      if UInt64.ofNat uint64Max - fdOperationalTicks < world.tick then
        (world, .error (fdDiagSet fdErrCapacity fdFieldTick 0 "tick counter would overflow"))
      else
        match stepLoop world decision with
        | .error (world, failure) => (world, .error failure)
        | .ok (world, result) =>
          if result.transitionStaged ≠ 1 ∨
              result.stateHashTraceIndex ≤ result.transitionStageTraceIndex then
            (world, .error (fdDiagSet fdErrInternal fdFieldNone 0
              "transition staging order was not observed"))
          else (world, .ok { result with postStateSha256 := world.stateSha256 })

/-- The result struct the core itself passes. -/
abbrev stepOut : StructHeader := ⟨sizeofFdStepResult, fdAbiVersion⟩

end FrontierDirectorate
