import Mathlib
import FrontierDirectorate.Contract.Buffers
import FrontierDirectorate.Cpp.WrapperLaws

/-!
# What every call of the wrapper does

One statement for each entry point: how it ends from any holdings, and what it then
holds. An error never leaves anything behind but a larger vector.
-/
namespace FrontierDirectorate

/-- The cursor is within the records, and their number fits its word. -/
structure Replay.Counted (replay : Replay) : Prop where
  cursor : replay.cursor ≤ replay.records.length
  bound : replay.records.length ≤ uint64Max

namespace Cpp
open Accounting Checks Unwinding

section worlds

variable {host : Host} {g : Holdings} {world : World}

/-- Holdings with one more thing owned. -/
def Holdings.plus (g : Holdings) (cost : Owned) : Holdings := { g with owned := g.owned + cost }

/-- How many objects share the `ContextState`. -/
def Holdings.references (g : Holdings) : Nat :=
  (if g.context then 1 else 0) + g.worlds.length + g.snapshots.length + g.replays.length

theorem references_of_context (h : g.context = true) : 0 < g.references := by
  unfold Holdings.references
  rw [if_pos h]
  omega

theorem references_of_world {index : Nat} {state : WorldState} (h : g.worlds[index]? = some state) :
    0 < g.references := by
  have hlength := List.length_pos_of_mem (List.mem_of_getElem? h)
  unfold Holdings.references
  omega

theorem references_of_replay {index : Nat} {replay : Replay} (h : g.replays[index]? = some replay) :
    0 < g.references := by
  have hlength := List.length_pos_of_mem (List.mem_of_getElem? h)
  unfold Holdings.references
  omega

theorem leads_fdWorldDestroy (g : Holdings) (world : World) :
    Leads Program.holdings (release (fdWorldDestroy world)) (g.plus world.owned) g :=
  leads_release (g := g.plus world.owned) (holds_fdWorldDestroy g.owned world)

theorem leads_fdReplayDestroy (g : Holdings) (replay : Replay) :
    Leads Program.holdings (release (fdReplayDestroy replay)) (g.plus replay.owned) g :=
  leads_release (g := g.plus replay.owned) (holds_fdReplayDestroy g.owned replay)

theorem leads_fdSnapshotDestroy (g : Holdings) (snapshot : Snapshot) :
    Leads Program.holdings (release (fdSnapshotDestroy snapshot)) (g.plus snapshot.owned) g :=
  leads_release (g := g.plus snapshot.owned) (holds_fdSnapshotDestroy g.owned snapshot)

theorem ends_saveHandle (h : world.Bounded) :
    Ends Program.holdings g (saveHandle host world) (Caught (fun _ g' => g' = g) fun bytes g' =>
      g' = g ∧ bytes = saveBytes world ∧ saveSize world ≤ host.context.maxFileBytes.toNat) := by
  apply ends_tryBlock
  cases hsize : fdWorldSaveSize host.context world with
  | error failure => exact ends_errorFrom fun _ => rfl
  | ok required =>
      obtain ⟨rfl, hmax⟩ := (fdWorldSaveSize_eq_ok_iff h).mp hsize
      apply ends_ite
      · exact fun _ => ends_wrapperError rfl fun _ _ => rfl
      · intro _
        apply ends_allocate_bind fun _ _ => rfl
        rw [fdWorldSave_eq h hmax le_rfl]
        apply ends_ite
        · exact fun hlength => absurd (saveBytes_length world) hlength
        · exact fun _ => ends_pure ⟨rfl, rfl, hmax⟩

/-- A world that has just been created: its initial save loads to it. -/
structure WorldState.Fresh (host : Host) (state : WorldState) : Prop where
  sound : state.world.Sound host.context
  decisions : state.decisions = []
  capacity : state.capacity = 0
  source : LoadsTo host.context state.initialSave state.world.reloaded

theorem of_not_bnot {b : Bool} (h : ¬ (!b) = true) : b = true := by
  cases b with
  | true => rfl
  | false => exact absurd rfl h

/-- A world whose tick can be loaded, with its save or without a trace. -/
theorem ends_adoptWorld (h : world.Sound host.context) (htick : world.tick ≤ lastStepTick)
    (hshared : 0 < g.references) :
    Ends Program.holdings (g.plus world.owned) (adoptWorld host world)
      (Returns (fun _ g' => g' = g) fun state g' =>
        g' = g.plus state.world.owned ∧ state.Fresh host ∧ 0 < g.references) := by
  apply ends_owning (leads_fdWorldDestroy g world)
  refine ends_bind_caught (ends_saveHandle h.bounded) ?_ ?_
  · rintro failure _ rfl
    exact ends_copyError ⟨rfl, rfl⟩ fun _ _ => ⟨rfl, rfl⟩
  · rintro bytes _ ⟨rfl, rfl, hmax⟩
    apply ends_allocate_bind fun _ _ => ⟨rfl, rfl⟩
    exact ends_pure ⟨rfl, ⟨h, rfl, rfl, loadsTo_saveBytes h htick hmax⟩, hshared⟩

theorem ends_generate (config : WorldConfig) (seed : UInt64) (content : Option ContentManifest) :
    Ends Program.holdings g (generate host config seed content)
      (Caught (fun _ g' => g' = g) fun state g' =>
        g' = g.plus state.world.owned ∧ state.Fresh host ∧ 0 < g.references) := by
  apply ends_tryBlock
  apply ends_bind
  apply ends_contextValid
  apply ends_ite
  · exact fun _ => ends_wrapperError rfl fun _ _ => rfl
  · intro hcontext
    have hshared := references_of_context (of_not_bnot hcontext)
    apply ends_bind
    refine ends_native (holds_fdWorldGenerate host.context g.owned config seed _ _) ?_
    intro s
    generalize hgenerated : (fdWorldGenerate host.context config seed (content.getD emptyContent)
      (some (initializeOutput sizeofFdGenerationReport)) s).1 = generated
    obtain ⟨report, failure | world⟩ := generated
    · exact ends_errorFrom fun _ => rfl
    · obtain ⟨hsound, htick⟩ := sound_of_generate (congrArg Prod.snd hgenerated)
      refine ends_adoptWorld hsound ?_ hshared
      rw [htick]
      decide

theorem ends_load (bytes : List UInt8) :
    Ends Program.holdings g (load host bytes) (Caught (fun _ g' => g' = g) fun state g' =>
      g' = g.plus state.world.owned ∧ state.Fresh host ∧ 0 < g.references) := by
  apply ends_tryBlock
  apply ends_bind
  apply ends_contextValid
  apply ends_ite
  · exact fun _ => ends_wrapperError rfl fun _ _ => rfl
  · intro hcontext
    have hshared := references_of_context (of_not_bnot hcontext)
    apply ends_ite
    · exact fun _ => ends_wrapperError rfl fun _ _ => rfl
    · intro _
      apply ends_bind
      refine ends_native (holds_fdWorldLoad host.context g.owned bytes) ?_
      intro s
      cases hloaded : (fdWorldLoad host.context bytes s).1 with
      | error failure => exact ends_errorFrom fun _ => rfl
      | ok world =>
          have hloads := fdWorldLoad_loadsTo hloaded
          apply ends_owning (leads_fdWorldDestroy g world)
          apply ends_allocate_bind fun _ _ => ⟨rfl, rfl⟩
          apply ends_allocate_bind fun _ _ => ⟨rfl, rfl⟩
          refine ends_pure ⟨rfl, ⟨hloads.sound.1, rfl, rfl, ?_⟩, hshared⟩
          rw [hloads.reloaded_eq]
          exact hloads

/-- Without a failing allocation what is a save is loaded. -/
theorem ends_load_of_loadsTo (hsteady : host.Steady) (hcontext : host.context.NeverFails)
    (hopen : g.context = true) {bytes : List UInt8} (hloads : LoadsTo host.context bytes world)
    (hlength : bytes.length ≤ uint64Max) :
    Ends Program.holdings g (load host bytes) (Caught (fun _ _ => False) fun state g' =>
      state = ⟨world, bytes, [], 0⟩ ∧ g' = g.plus world.owned) := by
  apply ends_tryBlock
  apply ends_bind
  apply ends_contextValid
  apply ends_ite
  · intro hclosed
    rw [hopen] at hclosed
    cases hclosed
  · intro _
    apply ends_ite
    · exact fun hlarge => absurd hlength (not_le.mpr hlarge)
    · intro _
      apply ends_bind
      refine ends_native (holds_fdWorldLoad host.context g.owned bytes) ?_
      intro s
      rw [fdWorldLoad_of_loadsTo hcontext hloads]
      apply ends_owning (leads_fdWorldDestroy g world)
      apply ends_allocate_bind fun hunsteady _ => absurd hsteady hunsteady
      apply ends_allocate_bind fun hunsteady _ => absurd hsteady hunsteady
      exact ends_pure ⟨rfl, rfl⟩

theorem ends_openReplay (bytes : List UInt8) :
    Ends Program.holdings g (openReplay host bytes) (Caught (fun _ g' => g' = g) fun replay g' =>
      g' = g.plus replay.owned ∧ replay.Counted ∧ 0 < g.references) := by
  apply ends_tryBlock
  apply ends_bind
  apply ends_contextValid
  apply ends_ite
  · exact fun _ => ends_wrapperError rfl fun _ _ => rfl
  · intro hcontext
    have hshared := references_of_context (of_not_bnot hcontext)
    apply ends_ite
    · exact fun _ => ends_wrapperError rfl fun _ _ => rfl
    · intro _
      apply ends_bind
      refine ends_native (holds_fdReplayOpen host.context g.owned bytes) ?_
      intro s
      cases hopen : (fdReplayOpen host.context bytes s).1 with
      | error failure => exact ends_errorFrom fun _ => rfl
      | ok replay =>
          obtain ⟨origin, sections, counts, hopened⟩ := fdReplayOpen_eq_ok hopen
          apply ends_owning (leads_fdReplayDestroy g replay)
          apply ends_allocate_bind fun _ _ => ⟨rfl, rfl⟩
          refine ends_pure ⟨rfl, ⟨?_, (Nat.le_add_right _ _).trans hopened.transcribed.bound⟩, hshared⟩
          rw [hopened.cursor]
          exact Nat.zero_le _

theorem ends_createWorld (index : Nat) :
    Ends Program.holdings g (createWorld host index) (Caught (fun _ g' => g' = g) fun state g' =>
      g' = g.plus state.world.owned ∧ state.Fresh host ∧ 0 < g.references) := by
  apply ends_tryBlock
  apply ends_bind
  apply ends_replayAt
  cases hreplay : g.replays[index]? with
  | none => exact ends_wrapperError rfl fun _ _ => rfl
  | some replay =>
      apply ends_bind
      refine ends_native (holds_fdWorldLoad host.context g.owned replay.tickZeroSave) ?_
      intro s
      cases hloaded : (fdReplayCreateWorld host.context replay s).1 with
      | error failure => exact ends_errorFrom fun _ => rfl
      | ok world =>
          obtain ⟨hsound, htick⟩ := (fdWorldLoad_loadsTo hloaded).sound
          exact ends_adoptWorld hsound htick (references_of_replay hreplay)

theorem ends_save {index : Nat} (h : ∀ state ∈ g.worlds[index]?, state.world.Bounded) :
    Ends Program.holdings g (save host index) (Caught (fun _ g' => g' = g) fun _ g' => g' = g) := by
  apply ends_tryBlock
  apply ends_bind
  apply ends_worldAt
  cases hlive : g.worlds[index]? with
  | none => exact ends_wrapperError rfl fun _ _ => rfl
  | some state =>
      refine (ends_saveHandle (h state hlive)).mono fun r g' hr => Caught.returns ?_
      rcases r with _ | _ | _
      · exact hr
      · exact hr
      · exact hr.1

theorem ends_referenceSnapshot {index : Nat}
    (h : ∀ state ∈ g.worlds[index]?, state.world.Bounded) :
    Ends Program.holdings g (referenceSnapshot host index)
      (Caught (fun _ g' => g' = g) fun snapshot g' =>
        g' = g.plus snapshot.owned ∧ 0 < g.references) := by
  apply ends_tryBlock
  apply ends_bind
  apply ends_worldAt
  cases hlive : g.worlds[index]? with
  | none => exact ends_wrapperError rfl fun _ _ => rfl
  | some state =>
      apply ends_bind
      refine ends_native (holds_fdSnapshotCreate host.context g.owned (h state hlive) _ _) ?_
      intro s
      cases (fdSnapshotCreate host.context state.world fdVisibilityReference 0 s).1 with
      | error failure => exact ends_errorFrom fun _ => rfl
      | ok snapshot =>
          apply ends_owning (leads_fdSnapshotDestroy g snapshot)
          apply ends_allocate_bind fun _ _ => ⟨rfl, rfl⟩
          exact ends_pure ⟨rfl, references_of_world hlive⟩

end worlds

section stepping

variable {host : Host} {g : Holdings} {world : World} {index : Nat}

/-- A query that has an answer. -/
theorem ends_answered {α : Type} {answer : Except Fail α} {a : α} (h : answer = .ok a) :
    Ends Program.holdings g (answered host answer)
      (Caught (fun _ _ => False) fun value g' => g' = g ∧ value = a) := by
  subst h
  apply ends_tryBlock
  exact ends_pure ⟨rfl, rfl⟩

theorem fdActionMaskQuery_maskBits {actor : FdEntityId} (h : fdIsForeignActor world actor = true) :
    fdActionMaskQuery world actor emptyPrefix maskBits =
      (⟨sizeofFdActionMask, fdAbiVersion, 1, fdActionPass, 1, 1, some [1, 0]⟩, .ok ()) := by
  have hchecks : maskChecks world actor emptyPrefix maskBits = .ok () := by
    rw [maskChecks, failIf_bind_of_not (by decide), failIf_bind_of_not (not_not.mpr h),
      failIf_bind_of_not (by decide)]
    decide
  rw [fdActionMaskQuery, hchecks]
  rfl

theorem fdActionValidate_passAction {actor : FdEntityId}
    (h : fdIsForeignActor world actor = true) : fdActionValidate world actor passAction = .ok () := by
  refine fdActionValidate_eq_ok_iff.mpr ⟨by decide, h, ⟨rfl, rfl⟩, fun parameter => ?_⟩
  rw [passAction, List.Vector.get_replicate]

/-- A seat may always pass. -/
theorem ends_checkSeat {actor : FdEntityId} (h : fdIsForeignActor world actor = true)
    {Q : Except Unwound (Except Fail Unit) → Holdings → Prop} (hok : Q (.ok (.ok ())) g) :
    Ends Program.holdings g (checkSeat host world actor) Q := by
  unfold checkSeat
  rw [fdActionMaskQuery_maskBits h, fdActionValidate_passAction h]
  have hlegal : passLegal ⟨sizeofFdActionMask, fdAbiVersion, 1, fdActionPass, 1, 1, some [1, 0]⟩ =
      true := by decide
  simp only [hlegal, Bool.not_true, Bool.false_eq_true, if_false]
  exact ends_pure hok

theorem ends_checkSeats {actors : List FdEntityId}
    (h : ∀ actor ∈ actors, fdIsForeignActor world actor = true)
    {Q : Except Unwound (Except Fail Unit) → Holdings → Prop} (hok : Q (.ok (.ok ())) g) :
    Ends Program.holdings g (checkSeats host world actors) Q := by
  induction actors with
  | nil => exact ends_pure hok
  | cons actor rest ih =>
      apply ends_bind
      refine ends_checkSeat (h actor List.mem_cons_self) ?_
      exact ih fun other hother => h other (List.mem_cons_of_mem actor hother)

theorem foreignFactions_of_valid (h : world.Valid) : world.region.foreignFactionIds =
    (world.entity 4).id ::ᵥ (world.entity 5).id ::ᵥ List.Vector.nil := by
  have hownership := ((World.valid_iff world).mp h).ownership
  simp only [World.ownershipHolds, fdValidateOwnershipGraph, Bool.and_eq_true,
    beq_iff_eq] at hownership
  obtain ⟨-, ⟨-, ⟨-, hfirst⟩, hsecond⟩, -⟩ := hownership
  exact List.Vector.ext (Fin.forall_fin_two.mpr ⟨hfirst, hsecond⟩)

/-- What the wrapper submits is the pass of the world. -/
theorem passDecision_eq (h : world.Valid) : passDecision (fdFillWorldInfo world) = world.pass := by
  have hseats : (fdFillWorldInfo world).foreignFactionIds.map
      (fun actor => (⟨actor, passAction⟩ : SeatDecision)) = world.pass.seats := by
    have hids : (fdFillWorldInfo world).foreignFactionIds = world.region.foreignFactionIds :=
      (foreignFactions_of_valid h).symm
    rw [hids]
    refine List.Vector.ext fun seat => ?_
    rw [List.Vector.get_map, World.pass, List.Vector.get_ofFn]
    rfl
  unfold passDecision
  rw [hseats]
  rfl

theorem foreign_of_info (h : world.Valid) :
    ∀ actor ∈ (fdFillWorldInfo world).foreignFactionIds.toList,
      fdIsForeignActor world actor = true := by
  have hids : (fdFillWorldInfo world).foreignFactionIds = world.region.foreignFactionIds :=
    (foreignFactions_of_valid h).symm
  rw [hids]
  intro actor hactor
  obtain ⟨seat, rfl⟩ := (List.Vector.mem_iff_get actor _).mp hactor
  exact foreign_of_eq seat

/-- At most the vector of one history has grown. -/
def Regrown (host : Host) (g : Holdings) (index : Nat) (g' : Holdings) : Prop :=
  g' = g ∨ ∃ state capacity, g.worlds[index]? = some state ∧ Roomy host state 0 capacity ∧
    g' = g.setWorld index { state with capacity := capacity }

/-- There is a world to step, its clock has room and so has its history. -/
def StepReady (host : Host) (g : Holdings) (index : Nat) : Prop :=
  ∃ state, g.worlds[index]? = some state ∧ state.world.tick ≤ lastStepTick ∧
    max 8 (state.decisions.length + 1) ≤ host.maxDecisions

/-- The world at `index` has passed once. -/
def Stepped (host : Host) (g : Holdings) (index : Nat) (out : StepResult) (g' : Holdings) : Prop :=
  ∃ state capacity, g.worlds[index]? = some state ∧ Roomy host state 1 capacity ∧
    StepAccepts state.world state.world.pass ∧
    out = acceptedResult state.world state.world.pass ∧
    g' = g.setWorld index { state with
      world := stepWorld state.world
      decisions := state.decisions ++ [state.world.pass]
      capacity := capacity }

/-- The live worlds are sound and their histories are stored. -/
def Holdings.Live (host : Host) (g : Holdings) : Prop :=
  ∀ state ∈ g.worlds, state.world.Sound host.context ∧ state.Stored host

theorem ends_stepExplicitPass (hlive : g.Live host) (index : Nat) :
    Ends Program.holdings g (stepExplicitPass host index)
      (Caught (fun _ g' => Regrown host g index g' ∧ (host.Steady → ¬ StepReady host g index))
        (Stepped host g index)) := by
  apply ends_tryBlock
  apply ends_bind
  apply ends_worldAt
  cases hstate : g.worlds[index]? with
  | none =>
      have hempty : ¬ StepReady host g index := by
        rintro ⟨state, hsome, -⟩
        rw [hstate] at hsome
        cases hsome
      exact ends_wrapperError ⟨.inl rfl, fun _ => hempty⟩ fun _ _ => ⟨.inl rfl, fun _ => hempty⟩
  | some state =>
      obtain ⟨hsound, hstored⟩ := hlive state (List.mem_of_getElem? hstate)
      apply ends_bind
      refine ends_prepareDecisions hstate hstored 1 ?_ ?_
      · intro hfull
        have hunready : host.Steady → ¬ StepReady host g index := by
          rintro hsteady ⟨other, hother, -, hroom⟩
          obtain rfl := Option.some.inj (hstate.symm.trans hother)
          exact absurd (hfull hsteady) (not_lt.mpr hroom)
        exact ends_wrapperError ⟨.inl rfl, hunready⟩ fun _ _ => ⟨.inl rfl, hunready⟩
      · intro capacity hroomy
        have hregrown : Regrown host g index (g.setWorld index { state with capacity := capacity }) :=
          .inr ⟨state, capacity, hstate, ⟨by have := hroomy.room; omega, hroomy.fits⟩, rfl⟩
        have hinfo : fdWorldGetInfo state.world (initializeOutput sizeofFdWorldInfo) =
            .ok (fdFillWorldInfo state.world) := by
          rw [fdWorldGetInfo, requireOutput_initialized]
          rfl
        refine ends_bind_caught (ends_answered hinfo) (fun _ _ h => h.elim) ?_
        rintro info _ ⟨rfl, rfl⟩
        apply ends_bind
        refine ends_checkSeats (foreign_of_info hsound.valid) ?_
        simp only [andThen]
        rw [passDecision_eq hsound.valid,
          show initializeOutput sizeofFdStepResult = stepOut from rfl,
          fdWorldStep_of_valid hsound.valid]
        cases hrefusal : stepRefusal state.world state.world.pass with
        | some failure =>
            have hunready : host.Steady → ¬ StepReady host g index := by
              rintro - ⟨other, hother, hclock, -⟩
              obtain rfl := Option.some.inj (hstate.symm.trans hother)
              have hnone := (stepRefusal_eq_none_iff hsound.valid).mpr
                (pass_stepAccepts hsound.valid hclock)
              rw [hrefusal] at hnone
              cases hnone
            apply ends_bind
            apply ends_setWorld
            have hsame : (g.setWorld index { state with capacity := capacity }).setWorld index
                { state with capacity := capacity } =
                  g.setWorld index { state with capacity := capacity } := setWorld_setWorld _ _ _ _
            refine ends_errorFrom fun _ => ⟨?_, hunready⟩
            rw [← hsame] at hregrown
            exact hregrown
        | none =>
            apply ends_bind
            apply ends_setWorld
            apply ends_bind
            refine ends_appendDecision (Nat.lt_of_succ_le hroomy.room) ?_
            refine ends_pure ⟨state, capacity, hstate, hroomy,
              (stepRefusal_eq_none_iff hsound.valid).mp hrefusal, rfl, ?_⟩
            have htwice := setWorld_setWorld g index { state with capacity := capacity }
              { state with capacity := capacity, world := stepWorld state.world }
            exact (congrArg (fun h : Holdings => h.setWorld index _) htwice).trans
              (setWorld_setWorld _ _ _ _)

end stepping

end Cpp

end FrontierDirectorate
