import Mathlib
import FrontierDirectorate.Core.Clock
import FrontierDirectorate.Core.ReplayOpen
import FrontierDirectorate.Core.Runs

/-!
# What an advance does

Records are played on a clone; the live world then takes over its clock and its
digest, which is all that playing changes.
-/
namespace FrontierDirectorate
open Accounting Checks

section play

variable {v w : World}

theorem playRecord_eq_ok {entry : ReplayRecord × Nat} (h : playRecord v entry = .ok w) :
    StepAccepts v entry.1.decision ∧ w = stepWorld v := by
  unfold playRecord at h
  split at h
  · cases h
  · next candidate step hstep =>
      obtain ⟨haccepts, hnext, -⟩ := accepted_of_ok hstep
      obtain ⟨-, hrest⟩ := failIf_bind_eq_ok.mp h
      exact ⟨haccepts, (Except.ok.inj hrest).symm.trans hnext⟩

/-- Playing moves the clock of the candidate, 24 ticks for each record, and each decision was
submitted at the tick it was accepted at. -/
theorem playRecords_eq_ok {entries : List (ReplayRecord × Nat)} (hv : v.atTick v.tick = v)
    (h : forEach entries playRecord v = .ok w) :
    w = v.atTick w.tick ∧ w.tick.toNat = v.tick.toNat + 24 * entries.length ∧
      entries.map (fun entry => entry.1.decision.expectedTick.toNat) =
        List.range' v.tick.toNat entries.length 24 := by
  induction entries generalizing v with
  | nil =>
      cases h
      exact ⟨hv.symm, rfl, rfl⟩
  | cons entry entries ih =>
      obtain ⟨u, hu, hrest⟩ := bind_eq_ok.mp h
      obtain ⟨haccepts, rfl⟩ := playRecord_eq_ok hu
      have hnext : (stepWorld v).tick.toNat = v.tick.toNat + 24 := tick_add haccepts.clock
      have hself : (stepWorld v).atTick (stepWorld v).tick = stepWorld v := v.atTick_atTick _ _
      obtain ⟨hbody, hclock, hchain⟩ := ih hself hrest
      refine ⟨?_, ?_, ?_⟩
      · rw [hbody, stepWorld_eq_atTick, World.atTick_atTick, World.atTick_tick]
      · rw [hclock, hnext, List.length_cons]
        omega
      · rw [List.map_cons, hchain, hnext, haccepts.joint.tick, List.length_cons, List.range'_succ]

end play

variable {context : FdContext} {world : World}

/-- The records the next call plays. -/
def Replay.nextRecords (replay : Replay) (decisions : UInt64) : List (ReplayRecord × Nat) :=
  (replay.records.zipIdx.drop replay.cursor).take (replay.stride decisions)

theorem nextRecords_map_fst (replay : Replay) (decisions : UInt64) :
    (replay.nextRecords decisions).map Prod.fst =
      (replay.records.drop replay.cursor).take (replay.stride decisions) := by
  rw [Replay.nextRecords, List.map_take, List.map_drop, List.zipIdx_map_fst]

theorem nextRecords_length (replay : Replay) (decisions : UInt64) :
    (replay.nextRecords decisions).length = replay.stride decisions := by
  rw [Replay.nextRecords, List.length_take, List.length_drop, List.length_zipIdx, Replay.stride]
  omega

/-- The three ways a call ends. -/
theorem fdReplayAdvance_cases (hworld : world.Sound context) (replay : Replay)
    (decisions : UInt64) (out : ReplayStatus) (sameContext : Bool) (s : Ledger) :
    (∃ failure, (fdReplayAdvance context replay world decisions out sameContext s).1 =
      ⟨replay, world, out, .error failure⟩) ∨
    (replay.stride decisions = 0 ∧
      (fdReplayAdvance context replay world decisions out sameContext s).1 =
        commitAdvance replay world 0 world.tick world.stateSha256) ∨
    ∃ final, forEach (replay.nextRecords decisions) playRecord world.reloaded = .ok final ∧
      (fdReplayAdvance context replay world decisions out sameContext s).1 =
        commitAdvance replay world (replay.stride decisions) final.tick final.stateSha256 := by
  unfold fdReplayAdvance
  cases advanceChecks replay world out sameContext with
  | error failure => exact .inl ⟨failure, rfl⟩
  | ok _ =>
      by_cases hstride : replay.stride decisions = 0
      · refine .inr (.inl ⟨hstride, ?_⟩)
        simp only [hstride, if_true, run_pure]
      · simp only [if_neg hstride, run_bind]
        cases hclone : (fdWorldCloneViaSave context world s).1 with
        | error failure => exact .inl ⟨failure, rfl⟩
        | ok candidate =>
            obtain ⟨rfl, -, -⟩ := clone_eq_of_ok hworld hclone
            have hentries : forEach ((replay.records.zipIdx.drop replay.cursor).take
                (replay.stride decisions)) playRecord world.reloaded =
              forEach (replay.nextRecords decisions) playRecord world.reloaded := rfl
            simp only [run_bind, hentries]
            cases forEach (replay.nextRecords decisions) playRecord world.reloaded with
            | error failure => exact .inl ⟨failure, rfl⟩
            | ok final => exact .inr (.inr ⟨final, rfl, rfl⟩)

/-- An advance moves the clock and refreshes the digest; nothing else of the world changes. -/
theorem fdReplayAdvance_world (hworld : world.Sound context) (replay : Replay)
    (decisions : UInt64) (out : ReplayStatus) (sameContext : Bool) (s : Ledger) :
    (fdReplayAdvance context replay world decisions out sameContext s).1.world =
        world.atTick (fdReplayAdvance context replay world decisions out sameContext s).1.world.tick ∧
      ∃ count, (fdReplayAdvance context replay world decisions out sameContext s).1.replay.cursor =
          replay.cursor + count ∧
        (fdReplayAdvance context replay world decisions out sameContext s).1.world.tick.toNat =
          world.tick.toNat + 24 * count ∧
        ((replay.records.drop replay.cursor).take count).length = count ∧
        ((replay.records.drop replay.cursor).take count).map
            (fun record => record.decision.expectedTick.toNat) =
          List.range' world.tick.toNat count 24 := by
  have hself := hworld.atTick_self
  rcases fdReplayAdvance_cases hworld replay decisions out sameContext s with
    ⟨failure, h⟩ | ⟨-, h⟩ | ⟨final, hplay, h⟩
  · rw [h]
    exact ⟨hself.symm, 0, rfl, rfl, by simp, by simp⟩
  · rw [h]
    exact ⟨hself.symm, 0, rfl, rfl, by simp, by simp⟩
  · rw [h]
    have hreloaded := hworld.reloaded.atTick_self
    obtain ⟨hbody, hclock, hchain⟩ := playRecords_eq_ok hreloaded hplay
    rw [nextRecords_length] at hclock hchain
    refine ⟨?_, replay.stride decisions, rfl, hclock, ?_, ?_⟩
    · have hdigest : final.stateSha256 = (world.atTick final.tick).stateSha256 := by
        rw [hbody, World.reloaded_atTick]
        rfl
      change { world with tick := final.tick, stateSha256 := final.stateSha256 } =
        world.atTick final.tick
      rw [hdigest]
      rfl
    · rw [← nextRecords_map_fst, List.length_map, nextRecords_length]
    · rw [← nextRecords_map_fst, List.map_map]
      exact hchain

end FrontierDirectorate
