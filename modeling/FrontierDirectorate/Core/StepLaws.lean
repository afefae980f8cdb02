import Mathlib
import FrontierDirectorate.Core.SaveRoundTrip
import FrontierDirectorate.Core.Step

/-!
# What a step does

An accepted decision moves the clock by 24 ticks, refreshes the state digest and
touches nothing else; a rejected one leaves the world as it is.
-/
namespace FrontierDirectorate
open Checks

/-- A decision the joint validator accepts. -/
structure JointValid (world : World) (decision : JointDecision) : Prop where
  header : fdInputStructValid decision.header sizeofFdJointDecision = true
  reserved : decision.reserved = 0
  seatCount : decision.seatCount = fdU01SeatCount
  tick : decision.expectedTick = world.tick
  hash : decision.expectedPreStateSha256 = world.stateSha256
  actor : ∀ seat, (decision.seats.get seat).actorId = world.region.foreignFactionIds.get seat
  actionHeader : ∀ seat,
    fdInputStructValid (decision.seats.get seat).action.header sizeofFdAction = true
  category : ∀ seat, (decision.seats.get seat).action.category = fdActionPass
  parameterCount : ∀ seat, (decision.seats.get seat).action.parameterCount = 0
  parameters : ∀ seat index, (decision.seats.get seat).action.parameters.get index = 0

theorem fdActionValidate_eq_ok_iff {world : World} {actor : FdEntityId} {action : Action} :
    fdActionValidate world actor action = .ok () ↔
      fdInputStructValid action.header sizeofFdAction = true ∧ fdIsForeignActor world actor = true ∧
        (action.category = fdActionPass ∧ action.parameterCount = 0) ∧
        ∀ index, action.parameters.get index = 0 := by
  simp only [fdActionValidate, failIf_bind_eq_ok, forEach_unit_eq_ok, failIf_eq_ok, not_or, not_not,
    List.mem_finRange, true_implies]

theorem foreign_of_eq {world : World} (seat : Fin 2) :
    fdIsForeignActor world (world.region.foreignFactionIds.get seat) = true := by
  match seat with
  | 0 => simp [fdIsForeignActor]
  | 1 => simp [fdIsForeignActor]

theorem fdJointValidate_eq_ok_iff {world : World} {decision : JointDecision} :
    fdJointValidate world decision = .ok () ↔ JointValid world decision := by
  simp only [fdJointValidate, failIf_bind_eq_ok, forEach_unit_eq_ok, not_not, List.mem_finRange,
    true_implies, fdActionValidate_eq_ok_iff]
  constructor
  · rintro ⟨h1, h2, h3, h4, h5, hseats⟩
    exact ⟨h1, h2, h3, h4, h5, fun seat => (hseats seat).1, fun seat => (hseats seat).2.1,
      fun seat => (hseats seat).2.2.2.1.1, fun seat => (hseats seat).2.2.2.1.2,
      fun seat => (hseats seat).2.2.2.2⟩
  · intro h
    refine ⟨h.header, h.reserved, h.seatCount, h.tick, h.hash, fun seat => ?_⟩
    refine ⟨h.actor seat, h.actionHeader seat, ?_, ⟨h.category seat, h.parameterCount seat⟩,
      h.parameters seat⟩
    rw [h.actor seat]
    exact foreign_of_eq seat

section loop

/-- The phase numbers of one local tick. -/
def tickPhases : List UInt32 := (List.range fdU01PhaseCount).map fun phase => UInt32.ofNat (phase + 1)

/-- The entity entries of the first phase of a local tick. -/
def tickEntities (world : World) (localTick : Nat) : List EntityTraceEntry :=
  (world.entities.toList.map Entity.id).map (EntityTraceEntry.mk (UInt32.ofNat localTick) 1)

/-- The actor entries of the second phase of the first local tick. -/
def seatEntries (decision : JointDecision) : List EntityTraceEntry :=
  (decision.seats.toList.map SeatDecision.actorId).map (EntityTraceEntry.mk 0 2)

variable {decision : JointDecision} {world : World} {result : StepResult}

/-- Phases with no rule of their own only leave their number. -/
theorem stepPhase_idle {localTick phase : Nat} (hfirst : phase ≠ 0) (hlast : phase ≠ 22)
    (hactors : ¬ (localTick = 0 ∧ phase = 1)) (hstage : ¬ (localTick + 1 = 24 ∧ phase = 21)) :
    stepPhase decision localTick (world, result) phase =
      .ok (world, result.tracePhase phase) := by
  have hstage' : ¬ (localTick + 1 = fdOperationalTicks.toNat ∧ phase = 21) := hstage
  simp only [stepPhase, if_neg hfirst, if_neg hactors, if_neg hstage', if_neg hlast]

theorem idle_phases {localTick : Nat} {phases : List Nat}
    (h : ∀ phase ∈ phases, phase ≠ 0 ∧ phase ≠ 22 ∧ ¬ (localTick = 0 ∧ phase = 1) ∧
      ¬ (localTick + 1 = 24 ∧ phase = 21)) :
    forEach phases (stepPhase decision localTick) (world, result) =
      .ok (world, { result with phaseTrace :=
        result.phaseTrace ++ phases.map (fun phase => UInt32.ofNat (phase + 1)) }) := by
  induction phases generalizing result with
  | nil => simp
  | cons phase phases ih =>
      obtain ⟨h1, h2, h3, h4⟩ := h phase List.mem_cons_self
      rw [forEach_cons, stepPhase_idle h1 h2 h3 h4, ok_bind,
        ih fun p hp => h p (List.mem_cons_of_mem phase hp)]
      simp [StepResult.tracePhase]

/-- The last phase moves the clock. -/
theorem stepPhase_clock {localTick : Nat} (h : localTick + 1 ≠ 24) :
    stepPhase decision localTick (world, result) 22 =
      .ok ({ world with tick := world.tick + 1 }, result.tracePhase 22) := by
  have h' : ¬ localTick + 1 = fdOperationalTicks.toNat := h
  simp [stepPhase, h']

/-- The first phase of a later local tick. -/
theorem stepPhase_entities {localTick : Nat} (h : localTick ≠ 0) :
    stepPhase decision localTick (world, result) 0 = .ok (world,
      { result with
        phaseTrace := result.phaseTrace ++ [1]
        entityTrace := result.entityTrace ++ tickEntities world localTick }) := by
  simp [stepPhase, h, StepResult.tracePhase, StepResult.traceEntities, tickEntities]

theorem phases_middle : List.range fdU01PhaseCount = 0 :: (List.range' 1 21 ++ [22]) := by decide

theorem phases_first : List.range fdU01PhaseCount = 0 :: 1 :: (List.range' 2 20 ++ [22]) := by
  decide

theorem phases_last : List.range fdU01PhaseCount = 0 :: (List.range' 1 20 ++ [21, 22]) := by decide

/-- A local tick between the first and the last. -/
theorem stepLocalTick_middle {localTick : Nat} (h0 : localTick ≠ 0) (h23 : localTick + 1 ≠ 24) :
    stepLocalTick decision (world, result) localTick =
      .ok ({ world with tick := world.tick + 1 }, { result with
        phaseTrace := result.phaseTrace ++ tickPhases
        entityTrace := result.entityTrace ++ tickEntities world localTick }) := by
  have hidle : ∀ phase ∈ List.range' 1 21, phase ≠ 0 ∧ phase ≠ 22 ∧
      ¬ (localTick = 0 ∧ phase = 1) ∧ ¬ (localTick + 1 = 24 ∧ phase = 21) := by
    intro phase hphase
    rw [List.mem_range'_1] at hphase
    omega
  rw [stepLocalTick, phases_middle, forEach_cons, stepPhase_entities h0, ok_bind, forEach_append,
    idle_phases hidle, ok_bind, forEach_cons, stepPhase_clock h23]
  simp [StepResult.tracePhase, tickPhases, phases_middle]

theorem stepLocalTicks_middle {ticks : List Nat}
    (h : ∀ localTick ∈ ticks, localTick ≠ 0 ∧ localTick + 1 ≠ 24) :
    forEach ticks (stepLocalTick decision) (world, result) =
      .ok ({ world with tick := world.tick + UInt64.ofNat ticks.length }, { result with
        phaseTrace := result.phaseTrace ++ ticks.flatMap (fun _ => tickPhases)
        entityTrace := result.entityTrace ++ ticks.flatMap (tickEntities world) }) := by
  induction ticks generalizing world result with
  | nil => simp
  | cons localTick ticks ih =>
      obtain ⟨h0, h23⟩ := h localTick List.mem_cons_self
      have hentities : tickEntities { world with tick := world.tick + 1 } = tickEntities world := rfl
      have htick : world.tick + 1 + UInt64.ofNat ticks.length =
          world.tick + UInt64.ofNat (ticks.length + 1) := by
        rw [UInt64.ofNat_add, UInt64.add_assoc, UInt64.add_comm 1]
        rfl
      rw [forEach_cons, stepLocalTick_middle h0 h23, ok_bind,
        ih fun t ht => h t (List.mem_cons_of_mem localTick ht)]
      simp only [hentities, htick, List.flatMap_cons, List.append_assoc, List.length_cons]

/-- The first local tick validates the world before anything else happens. -/
theorem stepLocalTick_first (hvalid : world.Valid) :
    stepLocalTick decision (world, result) 0 =
      .ok ({ world with tick := world.tick + 1 }, { result with
        phaseTrace := result.phaseTrace ++ tickPhases
        entityTrace := result.entityTrace ++ (tickEntities world 0 ++ seatEntries decision) }) := by
  have hreport : (fdWorldValidateInternal world).result = .ok () :=
    if_neg (not_not.mpr hvalid)
  have hidle : ∀ phase ∈ List.range' 2 20, phase ≠ 0 ∧ phase ≠ 22 ∧
      ¬ (0 = 0 ∧ phase = 1) ∧ ¬ (0 + 1 = 24 ∧ phase = 21) := by
    intro phase hphase
    rw [List.mem_range'_1] at hphase
    omega
  have hzero : stepPhase decision 0 (world, result) 0 = .ok (world,
      { result with
        phaseTrace := result.phaseTrace ++ [1]
        entityTrace := result.entityTrace ++ tickEntities world 0 }) := by
    simp [stepPhase, hreport, StepResult.tracePhase, StepResult.traceEntities, tickEntities]
  have hone : ∀ result, stepPhase decision 0 (world, result) 1 = .ok (world,
      { result with
        phaseTrace := result.phaseTrace ++ [2]
        entityTrace := result.entityTrace ++ seatEntries decision }) := by
    intro result
    simp [stepPhase, StepResult.tracePhase, StepResult.traceEntities, seatEntries]
  rw [stepLocalTick, phases_first, forEach_cons, hzero, ok_bind, forEach_cons, hone, ok_bind,
    forEach_append, idle_phases hidle, ok_bind, forEach_cons, stepPhase_clock (by decide)]
  simp [StepResult.tracePhase, tickPhases, phases_first]

theorem stepLocalTick_invalid (hvalid : ¬ world.Valid) :
    ∃ failure, stepLocalTick decision (world, result) 0 = .error (world, failure) := by
  have hreport : (fdWorldValidateInternal world).result =
      .error (fdDiagSet fdErrState fdFieldNone
        (UInt32.ofNat (fdWorldValidateInternal world).firstFailedTileIndex)
        "world invariant validation failed") := if_pos hvalid
  refine ⟨fdDiagSet fdErrState fdFieldNone
    (UInt32.ofNat (fdWorldValidateInternal world).firstFailedTileIndex)
    "world invariant validation failed", ?_⟩
  rw [stepLocalTick, phases_first, forEach_cons]
  simp [stepPhase, hreport]

/-- The world after an accepted step. -/
def stepWorld (world : World) : World :=
  fdWorldComputeHash { world with tick := world.tick + fdOperationalTicks }

/-- The last local tick stages the transition, then hashes. -/
theorem stepLocalTick_last :
    stepLocalTick decision (world, result) 23 =
      .ok (fdWorldComputeHash { world with tick := world.tick + 1 },
        { result.stage decision 550 with
          phaseTrace := result.phaseTrace ++ tickPhases
          entityTrace := result.entityTrace ++ tickEntities world 23
          stateHashPhase := 23
          stateHashTraceIndex := 551
          finalizedPostStateSha256 :=
            (fdWorldComputeHash { world with tick := world.tick + 1 }).stateSha256 }) := by
  have hidle : ∀ phase ∈ List.range' 1 20, phase ≠ 0 ∧ phase ≠ 22 ∧
      ¬ (23 = 0 ∧ phase = 1) ∧ ¬ (23 + 1 = 24 ∧ phase = 21) := by
    intro phase hphase
    rw [List.mem_range'_1] at hphase
    omega
  have hstage : ∀ result, stepPhase decision 23 (world, result) 21 =
      .ok (world, (result.tracePhase 21).stage decision 550) := fun _ => rfl
  have hhash : ∀ result, stepPhase decision 23 (world, result) 22 =
      .ok (fdWorldComputeHash { world with tick := world.tick + 1 },
        { result.tracePhase 22 with
          stateHashPhase := 23
          stateHashTraceIndex := 551
          finalizedPostStateSha256 :=
            (fdWorldComputeHash { world with tick := world.tick + 1 }).stateSha256 }) :=
    fun _ => rfl
  rw [stepLocalTick, phases_last, forEach_cons, stepPhase_entities (by decide), ok_bind,
    forEach_append, idle_phases hidle, ok_bind, forEach_cons, hstage, ok_bind, forEach_cons, hhash]
  simp [StepResult.tracePhase, StepResult.stage, tickPhases, phases_last]

/-- The result of an accepted step. -/
def acceptedResult (world : World) (decision : JointDecision) : StepResult :=
  { StepResult.start world decision with
    phaseTrace := (List.range 24).flatMap fun _ => tickPhases
    entityTrace := tickEntities world 0 ++ seatEntries decision ++
      (List.range' 1 23).flatMap (tickEntities world)
    transitionStaged := 1
    transitionStagePhase := 22
    stateHashPhase := 23
    transitionStageTraceIndex := 550
    stateHashTraceIndex := 551
    stagedTickBefore := world.tick
    stagedTickAfter := world.tick + fdOperationalTicks
    stagedDecision := decision.staged
    stagedPreStateSha256 := world.stateSha256
    stagedEventSha256 := fdSha256 []
    finalizedPostStateSha256 := (stepWorld world).stateSha256
    postStateSha256 := (stepWorld world).stateSha256 }

theorem ticks_split : List.range fdOperationalTicks.toNat = 0 :: (List.range' 1 22 ++ [23]) := by
  decide

theorem stepLoop_valid (hvalid : world.Valid) :
    ∃ result, stepLoop world decision = .ok (stepWorld world, result) ∧
      { result with postStateSha256 := (stepWorld world).stateSha256 } =
        acceptedResult world decision := by
  have hmiddle : ∀ localTick ∈ List.range' 1 22, localTick ≠ 0 ∧ localTick + 1 ≠ 24 := by
    intro localTick hlocal
    rw [List.mem_range'_1] at hlocal
    omega
  have hworld : fdWorldComputeHash
      { world with tick := world.tick + 1 + UInt64.ofNat (List.range' 1 22).length + 1 } =
        stepWorld world := by
    have htick : world.tick + 1 + UInt64.ofNat (List.range' 1 22).length + 1 =
        world.tick + fdOperationalTicks := by
      simp only [List.length_range', UInt64.add_assoc]
      rfl
    rw [htick, stepWorld]
  rw [stepLoop, ticks_split, forEach_cons, stepLocalTick_first hvalid, ok_bind, forEach_append,
    stepLocalTicks_middle hmiddle, ok_bind, forEach_cons, stepLocalTick_last]
  simp only [ok_bind, forEach_nil, hworld]
  refine ⟨_, rfl, ?_⟩
  have hphases : (List.range 24).flatMap (fun _ => tickPhases) =
      tickPhases ++ ((List.range' 1 22).flatMap (fun _ => tickPhases) ++ tickPhases) := by
    rw [show List.range 24 = 0 :: (List.range' 1 22 ++ [23]) from ticks_split]
    simp only [List.flatMap_cons, List.flatMap_append, List.flatMap_nil, List.append_nil]
  have hentities : (List.range' 1 23).flatMap (tickEntities world) =
      (List.range' 1 22).flatMap (tickEntities world) ++ tickEntities world 23 := by
    rw [show List.range' 1 23 = List.range' 1 22 ++ [23] by decide]
    simp only [List.flatMap_cons, List.flatMap_append, List.flatMap_nil, List.append_nil]
  have hsame : ∀ tick, tickEntities { world with tick := tick } = tickEntities world :=
    fun _ => rfl
  simp only [acceptedResult, StepResult.start, StepResult.stage, hphases, hentities, hsame,
    List.nil_append, List.append_assoc]
  rfl

theorem stepLoop_invalid (hvalid : ¬ world.Valid) :
    ∃ failure, stepLoop world decision = .error (world, failure) := by
  obtain ⟨failure, hfailure⟩ : ∃ failure, stepLocalTick decision
      (world, StepResult.start world decision) 0 = .error (world, failure) :=
    stepLocalTick_invalid hvalid
  exact ⟨failure, by rw [stepLoop, ticks_split, forEach_cons, hfailure, error_bind]⟩

end loop

/-- When a step with a well-formed output is accepted. -/
structure StepAccepts (world : World) (decision : JointDecision) : Prop where
  joint : JointValid world decision
  clock : world.tick ≤ UInt64.ofNat uint64Max - fdOperationalTicks
  valid : world.Valid

variable {world : World} {decision : JointDecision} {out : StructHeader}

/-- An accepted step, completely. -/
theorem fdWorldStep_accepted (hout : fdOutputStructValid out sizeofFdStepResult = true)
    (h : StepAccepts world decision) :
    fdWorldStep world decision out = (stepWorld world, .ok (acceptedResult world decision)) := by
  obtain ⟨result, hloop, hresult⟩ : ∃ result, stepLoop world decision =
      .ok (stepWorld world, result) ∧
      { result with postStateSha256 := (stepWorld world).stateSha256 } =
        acceptedResult world decision := stepLoop_valid h.valid
  have hstaged : result.transitionStaged = 1 :=
    (congrArg StepResult.transitionStaged hresult)
  have htrace : ¬ (result.transitionStaged ≠ 1 ∨
      result.stateHashTraceIndex ≤ result.transitionStageTraceIndex) := by
    have h1 : result.stateHashTraceIndex = 551 := congrArg StepResult.stateHashTraceIndex hresult
    have h2 : result.transitionStageTraceIndex = 550 :=
      congrArg StepResult.transitionStageTraceIndex hresult
    rw [hstaged, h1, h2]
    decide
  rw [fdWorldStep, if_neg (not_not.mpr hout), fdJointValidate_eq_ok_iff.mpr h.joint]
  simp only
  rw [if_neg (UInt64.not_lt.mpr h.clock), hloop]
  simp only
  rw [if_neg htrace, hresult]

/-- A step that is not accepted reports a failure and leaves the world as it is. -/
theorem fdWorldStep_rejected
    (h : ¬ (fdOutputStructValid out sizeofFdStepResult = true ∧ StepAccepts world decision)) :
    ∃ failure, fdWorldStep world decision out = (world, .error failure) := by
  rw [fdWorldStep]
  split
  · exact ⟨_, rfl⟩
  · next hout =>
      split
      · exact ⟨_, rfl⟩
      · next hjoint =>
          split
          · exact ⟨_, rfl⟩
          · next hclock =>
              have hvalid : ¬ world.Valid := fun hvalid =>
                h ⟨not_not.mp hout, fdJointValidate_eq_ok_iff.mp hjoint, UInt64.not_lt.mp hclock,
                  hvalid⟩
              obtain ⟨failure, hfailure⟩ : ∃ failure, stepLoop world decision =
                  .error (world, failure) := stepLoop_invalid hvalid
              exact ⟨failure, by rw [hfailure]⟩

/-- The two outcomes of a step. -/
theorem fdWorldStep_cases (world : World) (decision : JointDecision) (out : StructHeader) :
    (fdOutputStructValid out sizeofFdStepResult = true ∧ StepAccepts world decision ∧
      fdWorldStep world decision out = (stepWorld world, .ok (acceptedResult world decision))) ∨
    (∃ failure, fdWorldStep world decision out = (world, .error failure)) := by
  by_cases h : fdOutputStructValid out sizeofFdStepResult = true ∧ StepAccepts world decision
  · exact .inl ⟨h.1, h.2, fdWorldStep_accepted h.1 h.2⟩
  · exact .inr (fdWorldStep_rejected h)

section stepWorld

@[simp] theorem stepWorld_tick (world : World) :
    (stepWorld world).tick = world.tick + fdOperationalTicks := rfl

theorem stepWorld_stateSha256 (world : World) :
    (stepWorld world).stateSha256 = stateDigest (stepWorld world) :=
  (stateDigest_computeHash _).symm

/-- A step that is not past the last tick does not wrap the clock. -/
theorem tick_add (h : world.tick ≤ UInt64.ofNat uint64Max - fdOperationalTicks) :
    (world.tick + fdOperationalTicks).toNat = world.tick.toNat + 24 := by
  have hle := UInt64.le_iff_toNat_le.mp h
  have hmax : (UInt64.ofNat uint64Max - fdOperationalTicks).toNat = 18446744073709551591 := rfl
  have h24 : fdOperationalTicks.toNat = 24 := rfl
  rw [UInt64.toNat_add, h24]
  omega

/-- A step from an operational boundary ends at one. -/
theorem stepWorld_phase (h : world.tick % fdOperationalTicks = 0)
    (hclock : world.tick ≤ UInt64.ofNat uint64Max - fdOperationalTicks) :
    (stepWorld world).tick % fdOperationalTicks = 0 := by
  have htick := congrArg UInt64.toNat h
  rw [UInt64.toNat_mod] at htick
  apply UInt64.toNat_inj.mp
  rw [stepWorld_tick, UInt64.toNat_mod, tick_add hclock]
  change _ % 24 = 0 at htick
  change _ % 24 = 0
  omega

theorem Sound.stepWorld {context : FdContext} (h : world.Sound context)
    (hclock : world.tick ≤ UInt64.ofNat uint64Max - fdOperationalTicks) :
    (stepWorld world).Sound context where
  config := h.config
  inputs := h.inputs
  densities := h.densities
  liveBound := h.liveBound
  allocation := h.allocation
  configDigest := h.configDigest
  contentDigest := h.contentDigest
  stateHash := stepWorld_stateSha256 world
  tick := stepWorld_phase h.tick hclock
  valid := SameMap.valid_of_valid (v := world) ⟨rfl, rfl, rfl, rfl, rfl⟩ rfl rfl rfl h.valid
  names := h.names

end stepWorld

/-- Both seats pass on the world as it is. -/
def World.pass (world : World) : JointDecision where
  structSize := sizeofFdJointDecision
  abiVersion := fdAbiVersion
  seatCount := fdU01SeatCount
  reserved := 0
  expectedTick := world.tick
  expectedPreStateSha256 := world.stateSha256
  seats := List.Vector.ofFn fun seat =>
    ⟨world.region.foreignFactionIds.get seat,
      ⟨sizeofFdAction, fdAbiVersion, fdActionPass, 0, List.Vector.replicate 4 0⟩⟩

end FrontierDirectorate
