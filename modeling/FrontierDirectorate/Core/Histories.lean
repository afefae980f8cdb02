import Mathlib
import FrontierDirectorate.Core.ReplayBuildLaws
import FrontierDirectorate.Core.ReplayWorlds

/-!
# Histories

Decisions that the core accepts one after the other, from one world to another.
-/
namespace FrontierDirectorate
open Checks

/-- Every decision of the list is accepted, and the last one leads to `last`. -/
inductive Plays : World → List JointDecision → World → Prop
  | nil (world : World) : Plays world [] world
  | cons {world next last : World} {decision : JointDecision} {decisions : List JointDecision}
      {result : StepResult} (step : fdWorldStep world decision stepOut = (next, .ok result))
      (rest : Plays next decisions last) : Plays world (decision :: decisions) last

/-- The reloaded world accepts what the world accepts. -/
theorem StepAccepts.reloaded {world : World} {decision : JointDecision}
    (h : StepAccepts world decision) : StepAccepts world.reloaded decision where
  joint := ⟨h.joint.header, h.joint.reserved, h.joint.seatCount, h.joint.tick, h.joint.hash,
    h.joint.actor, h.joint.actionHeader, h.joint.category, h.joint.parameterCount,
    h.joint.parameters⟩
  clock := h.clock
  valid := valid_reloaded h.valid

theorem StepAccepts.of_reloaded {world : World} {decision : JointDecision} (hvalid : world.Valid)
    (h : StepAccepts world.reloaded decision) : StepAccepts world decision where
  joint := ⟨h.joint.header, h.joint.reserved, h.joint.seatCount, h.joint.tick, h.joint.hash,
    h.joint.actor, h.joint.actionHeader, h.joint.category, h.joint.parameterCount,
    h.joint.parameters⟩
  clock := h.clock
  valid := hvalid

/-- A loaded world has no trace of its generation, so its save loads to all of it. -/
theorem LoadsTo.reloaded_eq {context : FdContext} {bytes : List UInt8} {world : World}
    (h : LoadsTo context bytes world) : world.reloaded = world := by
  obtain ⟨sections, count, header, -, -, hbody⟩ := h
  obtain ⟨entities, -, rfl⟩ := decodeBody_eq_ok_iff.mp hbody
  rfl

/-- Whatever structure the caller hands in for the result, the step itself is the same. -/
theorem StepAccepts.plays {world : World} {decision : JointDecision}
    (h : StepAccepts world decision) : Plays world [decision] (stepWorld world) :=
  .cons (fdWorldStep_accepted (by decide) h) (.nil _)

namespace Plays

variable {context : FdContext} {first middle last : World} {decisions more : List JointDecision}

theorem last_eq (h : Plays first decisions last) : last = first.after decisions.length := by
  induction h with
  | nil world => rfl
  | cons step rest ih =>
      obtain ⟨-, rfl, -⟩ := accepted_of_ok step
      exact ih

theorem append (h : Plays first decisions middle) (hmore : Plays middle more last) :
    Plays first (decisions ++ more) last := by
  induction h with
  | nil world => exact hmore
  | cons step rest ih => exact .cons step (ih hmore)

/-- The clock counts the decisions. -/
theorem tick (h : Plays first decisions last) :
    last.tick.toNat = first.tick.toNat + 24 * decisions.length := by
  induction h with
  | nil world => rfl
  | cons step rest ih =>
      obtain ⟨haccepts, rfl, -⟩ := accepted_of_ok step
      rw [ih, stepWorld_tick, tick_add haccepts.clock, List.length_cons]
      omega

theorem sound (h : Plays first decisions last) (hfirst : first.Sound context) :
    last.Sound context := by
  induction h with
  | nil world => exact hfirst
  | cons step rest ih =>
      obtain ⟨haccepts, rfl, -⟩ := accepted_of_ok step
      exact ih (Sound.stepWorld hfirst haccepts.clock)

theorem reloaded (h : Plays first decisions last) : Plays first.reloaded decisions last.reloaded := by
  induction h with
  | nil world => exact .nil _
  | cons step rest ih =>
      obtain ⟨haccepts, rfl, -⟩ := accepted_of_ok step
      rw [← stepWorld_reloaded] at ih
      exact .cons (fdWorldStep_accepted (by decide) haccepts.reloaded) ih

/-- What the reloaded world accepts, the world itself accepts. -/
theorem of_reloaded (hvalid : first.Valid) (h : Plays first.reloaded decisions last) :
    Plays first decisions (first.after decisions.length) := by
  induction decisions generalizing first with
  | nil => exact .nil first
  | cons decision decisions ih =>
      cases h with
      | cons step rest =>
          obtain ⟨haccepts, rfl, -⟩ := accepted_of_ok step
          rw [stepWorld_reloaded] at rest
          exact (haccepts.of_reloaded hvalid).plays.append (ih (valid_stepWorld hvalid) rest)

/-- The transcript of a history has a record for each decision and no audit. -/
theorem transcript_eq (h : Plays first decisions last) (hvalid : first.Valid) (index : Nat) :
    (transcript first index decisions).world = last ∧
      (transcript first index decisions).records.length = decisions.length ∧
      (transcript first index decisions).audits = [] := by
  induction h generalizing index with
  | nil world => exact ⟨rfl, rfl, rfl⟩
  | cons step rest ih =>
      obtain ⟨haccepts, rfl, -⟩ := accepted_of_ok step
      obtain ⟨hlast, hlength, haudits⟩ := ih (valid_stepWorld hvalid) (index + 1)
      rw [transcript_of_accepted hvalid ((stepRefusal_eq_none_iff hvalid).mpr haccepts)]
      exact ⟨hlast, congrArg (· + 1) hlength, haudits⟩

/-- The records hold the decisions as the core staged them. -/
theorem records_decision (h : Plays first decisions last) (hvalid : first.Valid) (index : Nat) :
    (transcript first index decisions).records.map ReplayRecord.decision =
      decisions.map JointDecision.staged := by
  induction h generalizing index with
  | nil world => rfl
  | @cons world next last decision decisions result step rest ih =>
      obtain ⟨haccepts, rfl, -⟩ := accepted_of_ok step
      have hnext := ih (valid_stepWorld hvalid) (index + 1)
      have hstaged : world.passRecord.decision = decision.staged := (staged_eq_pass haccepts).symm
      rw [transcript_of_accepted hvalid ((stepRefusal_eq_none_iff hvalid).mpr haccepts)]
      exact congrArg₂ List.cons hstaged hnext

/-- A history from tick zero can be built unless the file gets too large. -/
theorem buildable (h : Plays first decisions last) (hvalid : first.Valid) (htick : first.tick = 0)
    (hcheckpoints : decisions.length / 1024 ≤ uint32Max)
    (htotal : replayTotal first decisions.length 0 ≤ context.maxFileBytes.toNat) :
    Buildable context first decisions := by
  obtain ⟨-, hlength, haudits⟩ := h.transcript_eq hvalid 0
  have hclock := h.tick
  rw [htick, UInt64.toNat_zero] at hclock
  have hlt := last.tick.toNat_lt
  refine ⟨htick, ?_, by omega, ?_, ?_, ?_⟩
  · rw [Nat.le_div_iff_mul_le (by decide)]
    unfold replayTotal at htotal
    omega
  · rw [haudits]
    exact Nat.zero_le _
  · rw [hlength]
    exact hcheckpoints
  · rw [hlength, haudits]
    exact htotal

/-- The last record, if there is one, ends in the last state. -/
theorem last_record (h : Plays first decisions last) (hvalid : first.Valid) (index : Nat) :
    ∀ record ∈ (transcript first index decisions).records.getLast?,
      record.postHash = last.stateSha256 ∧ record.tickAfter = last.tick := by
  induction h generalizing index with
  | nil world =>
      intro record hrecord
      cases hrecord
  | @cons world next last decision decisions result step rest ih =>
      obtain ⟨haccepts, rfl, -⟩ := accepted_of_ok step
      have hnext := valid_stepWorld hvalid
      rw [transcript_of_accepted hvalid ((stepRefusal_eq_none_iff hvalid).mpr haccepts)]
      intro record hrecord
      have hlater := ih hnext (index + 1)
      have hlength := (rest.transcript_eq hnext (index + 1)).2.1
      cases hrecords : (transcript (stepWorld world) (index + 1) decisions).records with
      | nil =>
          have hnone : decisions = [] := by
            rw [hrecords] at hlength
            exact List.length_eq_zero_iff.mp hlength.symm
          subst hnone
          cases rest
          rw [Transcript.accept, hrecords, List.getLast?_singleton] at hrecord
          cases hrecord
          exact ⟨rfl, rfl⟩
      | cons head tail =>
          rw [Transcript.accept, hrecords, List.getLast?_cons_cons, ← hrecords] at hrecord
          exact hlater record hrecord

end Plays

/-- The post-state hash of the last record; of a replay without records, the hash it starts at. -/
def Replay.finalHash (replay : Replay) : Digest :=
  match replay.records.getLast? with
  | some record => record.postHash
  | none => replay.tickZeroHash

/-- A replay of a history ends in the last state. -/
theorem Plays.finalHash {first last : World} {decisions : List JointDecision}
    (h : Plays first decisions last) (hvalid : first.Valid) {replay : Replay}
    (hrecords : replay.records = (transcript first 0 decisions).records)
    (hhash : replay.tickZeroHash = first.stateSha256) : replay.finalHash = last.stateSha256 := by
  have hlast := h.last_record hvalid 0
  rw [← hrecords] at hlast
  unfold Replay.finalHash
  cases hrecord : replay.records.getLast? with
  | some record => exact (hlast record hrecord).1
  | none =>
      have hlength := (h.transcript_eq hvalid 0).2.1
      rw [← hrecords, List.getLast?_eq_none_iff.mp hrecord] at hlength
      have hempty : decisions = [] := List.length_eq_zero_iff.mp hlength.symm
      subst hempty
      cases h
      exact hhash

/-- The records that an advance has played. -/
theorem plays_of_playRecords {v w : World} {entries : List (ReplayRecord × Nat)}
    (h : forEach entries playRecord v = .ok w) :
    Plays v (entries.map fun entry => entry.1.decision) w := by
  induction entries generalizing v with
  | nil =>
      cases h
      exact .nil _
  | cons entry entries ih =>
      obtain ⟨u, hu, hrest⟩ := bind_eq_ok.mp h
      obtain ⟨haccepts, rfl⟩ := playRecord_eq_ok hu
      exact haccepts.plays.append (ih hrest)

/-- The decisions that the next call plays. -/
def Replay.nextDecisions (replay : Replay) (decisions : UInt64) : List JointDecision :=
  ((replay.records.drop replay.cursor).take (replay.stride decisions)).map ReplayRecord.decision

theorem nextDecisions_length (replay : Replay) (decisions : UInt64) :
    (replay.nextDecisions decisions).length = replay.stride decisions := by
  rw [Replay.nextDecisions, List.length_map, List.length_take, List.length_drop, Replay.stride]
  omega

/-- An advance that succeeds has played the next records on the live world. -/
theorem advance_ok {context : FdContext} {world : World} (hworld : world.Sound context)
    {replay : Replay} {decisions : UInt64} {out : ReplayStatus} {sameContext : Bool} {s : Ledger}
    (h : (fdReplayAdvance context replay world decisions out sameContext s).1.result = .ok ()) :
    Plays world (replay.nextDecisions decisions) (world.after (replay.stride decisions)) ∧
      (fdReplayAdvance context replay world decisions out sameContext s).1.replay =
        { replay with cursor := replay.cursor + replay.stride decisions } ∧
      (fdReplayAdvance context replay world decisions out sameContext s).1.world =
        world.after (replay.stride decisions) ∧
      (fdReplayAdvance context replay world decisions out sameContext s).1.out.decisionsAdvanced =
        replay.stride decisions := by
  rcases fdReplayAdvance_cases hworld replay decisions out sameContext s with
    ⟨failure, hcase⟩ | ⟨hstride, hcase⟩ | ⟨final, hplayed, hcase⟩
  · rw [hcase] at h
    cases h
  · rw [hcase, Replay.nextDecisions, hstride, List.take_zero]
    exact ⟨.nil world, rfl, rfl, rfl⟩
  · have hfinal := plays_of_playRecords hplayed
    have hnext : (replay.nextRecords decisions).map (fun entry => entry.1.decision) =
        replay.nextDecisions decisions := by
      rw [Replay.nextDecisions, ← nextRecords_map_fst, List.map_map]
      rfl
    rw [hnext] at hfinal
    have hplays := hfinal.of_reloaded hworld.valid
    have hlast : (world.after (replay.nextDecisions decisions).length).reloaded = final :=
      hplays.reloaded.last_eq.trans hfinal.last_eq.symm
    rw [nextDecisions_length] at hplays hlast
    rw [hcase, ← hlast]
    exact ⟨hplays, rfl, world.after_commit _, rfl⟩

end FrontierDirectorate
