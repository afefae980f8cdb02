import Mathlib
import FrontierDirectorate.Contract.Buffers
import FrontierDirectorate.Cpp.ProgramLaws

/-!
# The wrapper

Any calls on the objects of one context, in any order, also with replays of other
contexts, whatever the allocations throw. The histories of the worlds stay exact, a
failed call changes nothing that can be observed, and the last owner destroys the context.
-/
namespace FrontierDirectorate.Cpp
open Accounting Checks Unwinding

variable {host : Host}

/-- At every point of every program the history of each world leads from its initial save to the
world, and its vector has never had to grow for a decision that was already accepted. -/
theorem history_exact (host : Host) (calls : List Call) :
    ∃ p, Program.start.run host calls = some p ∧ ∀ state ∈ p.worlds,
      (∃ first, LoadsTo host.context state.initialSave first ∧
        Plays first state.decisions state.world.reloaded ∧
        state.world.tick.toNat = first.tick.toNat + 24 * state.decisions.length) ∧
      state.decisions.length ≤ state.capacity ∧ state.capacity ≤ host.maxDecisions := by
  obtain ⟨p, hrun, hsound⟩ := run_sound (sound_start host) calls
  refine ⟨p, hrun, fun state hstate => ?_⟩
  have hexact := hsound.exact state hstate
  obtain ⟨first, hloads, hplays⟩ := hexact.played
  exact ⟨⟨first, hloads, hplays, hplays.tick⟩, hexact.stored.room, hexact.stored.fits⟩

/-- A call that fails leaves every object as it was, apart from the room in a vector, and the
counters of the context too. -/
theorem failed_call_unchanged (host : Host) (calls : List Call) (c : Call) :
    ∃ p q result, Program.start.run host calls = some p ∧ p.call host c = some (q, result) ∧
      ∀ failure, result = .error failure →
        q.ledger.owned = p.ledger.owned ∧ q.context = p.context ∧ q.released = p.released ∧
        (q.worlds.map fun state => { state with capacity := 0 }) =
          (p.worlds.map fun state => { state with capacity := 0 }) ∧
        q.snapshots = p.snapshots ∧ q.replays = p.replays := by
  obtain ⟨p, hrun, hsound⟩ := run_sound (sound_start host) calls
  obtain ⟨q, result, hcall, -, hfailed⟩ := call_survives hsound c
  refine ⟨p, q, result, hrun, hcall, fun failure hfailure => ?_⟩
  have hsame := hfailed failure hfailure
  exact ⟨congrArg Holdings.owned hsame, congrArg Holdings.context hsame,
    congrArg Holdings.released hsame, congrArg Holdings.worlds hsame,
    congrArg Holdings.snapshots hsame, congrArg Holdings.replays hsame⟩

/-- The counters show what the objects own, and the context is destroyed with its last owner, when
it owns nothing any more. -/
theorem released_with_last_owner (host : Host) (calls : List Call) :
    ∃ p, Program.start.run host calls = some p ∧
      p.ledger.owned = Owned.ofNat p.holdings.bytes p.holdings.handles ∧
      (p.released = true ↔ p.references = 0) ∧
      (p.released = true → p.ledger.liveBytes = 0 ∧ p.ledger.liveHandles = 0) := by
  obtain ⟨p, hrun, hsound⟩ := run_sound (sound_start host) calls
  refine ⟨p, hrun, hsound.balanced, hsound.shared, fun hreleased => ?_⟩
  have hzero : p.references = 0 := hsound.shared.mp hreleased
  unfold Program.references at hzero
  have hworlds : p.worlds = [] := List.length_eq_zero_iff.mp (by omega)
  have hsnapshots : p.snapshots = [] := List.length_eq_zero_iff.mp (by omega)
  have hreplays : p.replays = [] := List.length_eq_zero_iff.mp (by omega)
  have hbytes : p.holdings.bytes = 0 := by
    rw [Holdings.bytes, Program.holdings, hworlds, hsnapshots, hreplays]
    rfl
  have hhandles : p.holdings.handles = 0 := by
    rw [Holdings.handles, Program.holdings, hworlds, hsnapshots, hreplays]
    rfl
  have hbooks := hsound.balanced
  rw [hbytes, hhandles] at hbooks
  exact ⟨congrArg Prod.fst hbooks, congrArg Prod.snd hbooks⟩

/-- `step_explicit_pass` plays the pass of the world and stores it. Without a failing allocation it
only fails when there is no world, its clock is at the end or its history is full. -/
theorem explicit_pass_steps (host : Host) (calls : List Call) (index : Nat) :
    ∃ p q result, Program.start.run host calls = some p ∧
      stepExplicitPass host index p = (.ok result, q) ∧
      (∀ out, result = .ok out → ∃ state later, p.worlds[index]? = some state ∧
        q.worlds = p.worlds.set index later ∧ StepAccepts state.world state.world.pass ∧
        out = acceptedResult state.world state.world.pass ∧
        later.world = stepWorld state.world ∧ later.initialSave = state.initialSave ∧
        later.decisions = state.decisions ++ [state.world.pass]) ∧
      ∀ failure, result = .error failure → host.Steady → ¬ ∃ state, p.worlds[index]? = some state ∧
        state.world.tick ≤ lastStepTick ∧
        max 8 (state.decisions.length + 1) ≤ host.maxDecisions := by
  obtain ⟨p, hrun, hsound⟩ := run_sound (sound_start host) calls
  have hend := ends_stepExplicitPass hsound.live index p rfl
  rcases hbody : stepExplicitPass host index p with ⟨e | failure | out, q⟩
  · rw [hbody] at hend
    exact hend.elim
  · rw [hbody] at hend
    refine ⟨p, q, .error failure, hrun, hbody, ?_, fun _ _ => hend.2⟩
    intro out hout
    cases hout
  · rw [hbody] at hend
    obtain ⟨state, capacity, hstate, -, haccepts, hout, hview⟩ := hend
    refine ⟨p, q, .ok out, hrun, hbody, ?_, ?_⟩
    · intro same hsame
      cases hsame
      exact ⟨state, _, hstate, congrArg Holdings.worlds hview, haccepts, hout, rfl, rfl, rfl⟩
    · intro failure hfailure
      cases hfailure

/-- `Replay::advance` stores exactly the decisions that the core has played, which are the next
ones of the replay. -/
theorem advance_stores_played (host : Host) (calls : List Call) (replayIndex worldIndex : Nat)
    (decisions : UInt64) :
    ∃ p q result, Program.start.run host calls = some p ∧
      advance host replayIndex worldIndex decisions p = (.ok result, q) ∧
      ∀ out, result = .ok out → ∃ replay state later, p.replays[replayIndex]? = some replay ∧
        p.worlds[worldIndex]? = some state ∧ q.worlds = p.worlds.set worldIndex later ∧
        q.replays = p.replays.set replayIndex
          { replay with cursor := replay.cursor + replay.stride decisions } ∧
        out.decisionsAdvanced = replay.stride decisions ∧
        Plays state.world (replay.nextDecisions decisions) later.world ∧
        later.initialSave = state.initialSave ∧
        later.decisions = state.decisions ++ replay.nextDecisions decisions := by
  obtain ⟨p, hrun, hsound⟩ := run_sound (sound_start host) calls
  have hend := ends_advance hsound.live hsound.counted replayIndex worldIndex decisions p rfl
  rcases hbody : advance host replayIndex worldIndex decisions p with ⟨e | failure | out, q⟩
  · rw [hbody] at hend
    exact hend.elim
  · refine ⟨p, q, .error failure, hrun, hbody, ?_⟩
    intro out hout
    cases hout
  · rw [hbody] at hend
    obtain ⟨replay, state, capacity, hreplay, hstate, -, hplays, hcount, hview⟩ := hend
    refine ⟨p, q, .ok out, hrun, hbody, ?_⟩
    intro same hsame
    cases hsame
    exact ⟨replay, state, _, hreplay, hstate, congrArg Holdings.worlds hview,
      congrArg Holdings.replays hview, hcount, hplays, rfl, rfl⟩

/-- Without a failing allocation only a file that is too large is not built. -/
theorem total_of_buildReplay_error {p q : Program} {index : Nat} {failure : Fail}
    (hsound : p.holdings.Sound host) (hbody : buildReplay host index none p = (.ok (.error failure), q))
    (hsteady : host.Steady) (hcontext : host.context.NeverFails) {state : WorldState} {first : World}
    (hstate : p.worlds[index]? = some state) (hloads : LoadsTo host.context state.initialSave first)
    (htick : first.tick = 0) (hcheckpoints : state.decisions.length / 1024 ≤ uint32Max) :
    min host.context.maxFileBytes.toNat host.sizeMax <
      replayTotal first state.decisions.length 0 := by
  have hend := @ends_buildReplay host p.holdings index none p rfl
  rw [hbody] at hend
  have hplays := (hsound.exact state (List.mem_of_getElem? hstate)).plays hloads
  have hvalid := hloads.sound.1.valid
  obtain ⟨-, hlength, haudits⟩ := hplays.transcript_eq hvalid 0
  by_contra hlarge
  obtain ⟨hmax, hsize⟩ := le_min_iff.mp (not_lt.mp hlarge)
  refine hend.2 state hstate hsteady hcontext
    ⟨first, hloads, hplays.buildable hvalid htick hcheckpoints hmax, ?_⟩
  change replayTotal first (transcript first 0 state.decisions).records.length
    (transcript first 0 state.decisions).audits.length ≤ host.sizeMax
  rw [hlength, haudits]
  exact hsize

/-- The replay of a history opens again, with the decisions of the history, no audits, and the live
state behind its last record. Without a failing allocation it is built whenever the history starts
at tick zero and its file is not too large. -/
theorem history_replay (host : Host) (calls : List Call) (index : Nat) :
    ∃ p q result, Program.start.run host calls = some p ∧
      buildReplay host index none p = (.ok result, q) ∧
      (∀ bytes, result = .ok bytes → ∃ state, p.worlds[index]? = some state ∧
        (host.context.NeverFails → ∀ s, ∃ replay,
          (fdReplayOpen host.context bytes s).1 = .ok replay ∧
          replay.records.map ReplayRecord.decision = state.decisions.map JointDecision.staged ∧
          replay.audits = [] ∧
          ∀ record ∈ replay.records.getLast?, record.postHash = state.world.stateSha256 ∧
            record.tickAfter = state.world.tick)) ∧
      ∀ failure, result = .error failure → host.Steady → host.context.NeverFails →
        ∀ state first, p.worlds[index]? = some state →
          LoadsTo host.context state.initialSave first → first.tick = 0 →
          state.decisions.length / 1024 ≤ uint32Max →
          min host.context.maxFileBytes.toNat host.sizeMax <
            replayTotal first state.decisions.length 0 := by
  obtain ⟨p, hrun, hsound⟩ := run_sound (sound_start host) calls
  have hend := @ends_buildReplay host p.holdings index none p rfl
  rcases hbody : buildReplay host index none p with ⟨e | failure | bytes, q⟩
  · rw [hbody] at hend
    exact hend.elim
  · refine ⟨p, q, .error failure, hrun, hbody, ?_, ?_⟩
    · intro bytes hbytes
      cases hbytes
    · intro _ _ hsteady hcontext state first hstate hloads htick hcheckpoints
      exact total_of_buildReplay_error hsound hbody hsteady hcontext hstate hloads htick
        hcheckpoints
  · rw [hbody] at hend
    obtain ⟨-, state, hstate, first, hloads, hbuildable, hbytes⟩ := hend
    refine ⟨p, q, .ok bytes, hrun, hbody, ?_, ?_⟩
    · intro same hsame
      cases hsame
      refine ⟨state, hstate, fun hcontext s => ?_⟩
      have hexact := hsound.exact state (List.mem_of_getElem? hstate)
      have hmemory := hexact.stored.memory
      have hplays := hexact.plays hloads
      have hfirst := hloads.sound.1
      obtain ⟨-, hlength, haudits⟩ := hplays.transcript_eq hfirst.valid 0
      rw [← hlength] at hmemory
      obtain ⟨replay, hopen, hrecords, hnone, -⟩ :=
        fdReplayOpen_replayFile hcontext hfirst hbuildable hmemory s
      rw [hbytes]
      refine ⟨replay, hopen, ?_, hnone.trans haudits, ?_⟩
      · rw [hrecords]
        exact hplays.records_decision hfirst.valid 0
      · rw [hrecords]
        exact hplays.last_record hfirst.valid 0
    · intro failure hfailure
      cases hfailure

/-- From its initial save a world is reached again by its decisions, each of them accepted. Only the
two counters of the generation report, which no save carries, need not be the same. -/
structure WorldState.Retraced (host : Host) (state : WorldState) : Prop where
  loads : ∀ allocate, (host.context.allocating allocate).NeverFails → ∀ s, ∃ first,
    (fdWorldLoad (host.context.allocating allocate) state.initialSave s).1 = .ok first
  folds : ∀ allocate s first,
    (fdWorldLoad (host.context.allocating allocate) state.initialSave s).1 = .ok first →
      ∃ last, Plays first state.decisions last ∧ last.SameAuthority state.world

/-- A file whose replay ends in `world`: a decision for each operational period, and no audit. -/
structure ReplaysTo (context : FdContext) (bytes : List UInt8) (world : World) : Prop where
  opens : ∀ allocate, (context.allocating allocate).NeverFails → ∀ s, ∃ replay,
    (fdReplayOpen (context.allocating allocate) bytes s).1 = .ok replay
  entries : ∀ allocate s replay,
    (fdReplayOpen (context.allocating allocate) bytes s).1 = .ok replay →
      (∃ info, fdReplayGetInfo replay (initializeOutput sizeofFdReplayInfo) = .ok info ∧
        info.decisionCount = world.tick / fdOperationalTicks ∧ info.auditCount = 0) ∧
      replay.audits = [] ∧ replay.finalHash = world.stateSha256

section retracing

variable {state : WorldState} {bytes : List UInt8}

theorem WorldState.Exact.retraced (h : state.Exact host) : state.Retraced host := by
  obtain ⟨first, hloads, hplays⟩ := h.played
  refine ⟨fun allocate hcontext s => ?_, fun allocate s other hload => ?_⟩
  · have hsame : LoadsTo (host.context.allocating allocate) state.initialSave first := hloads
    exact ⟨first, fdWorldLoad_of_loadsTo hcontext hsame s⟩
  · obtain rfl := (fdWorldLoad_loadsTo hload).of_allocating.unique hloads
    exact ⟨state.world.reloaded, hplays, state.world.reloaded_sameAuthority⟩

/-- A word counts the decisions that the clock has seen. -/
theorem decisionWord_eq {tick : UInt64} {n : Nat} (h : tick.toNat = 24 * n) :
    UInt64.ofNat n = tick / fdOperationalTicks := by
  have hlt := tick.toNat_lt
  apply UInt64.toNat_inj.mp
  rw [UInt64.toNat_ofNat', UInt64.toNat_div, h, Nat.mod_eq_of_lt (by omega)]
  exact (Nat.mul_div_cancel_left n (by decide)).symm

theorem WorldState.Exact.replaysTo (h : state.Exact host)
    (hbuilt : Built host state state.decisions bytes) :
    ReplaysTo host.context bytes state.world := by
  obtain ⟨first, hloads, hbuildable, rfl⟩ := hbuilt
  have hplays := h.plays hloads
  have hfirst := hloads.sound.1
  obtain ⟨-, hlength, hnone⟩ := hplays.transcript_eq hfirst.valid 0
  have hmemory := h.stored.memory
  rw [← hlength] at hmemory
  have hopens : ∀ allocate, (host.context.allocating allocate).NeverFails → ∀ s, _ :=
    fun allocate hcontext => fdReplayOpen_replayFile hcontext (hfirst.allocating allocate)
      (hbuildable.allocating allocate) hmemory
  refine ⟨fun allocate hcontext s => ?_, fun allocate s replay hopen => ?_⟩
  · obtain ⟨replay, hopen, -⟩ := hopens allocate hcontext s
    exact ⟨replay, hopen⟩
  · -- what opens under this allocator is what opens when none of its allocations fails
    obtain ⟨other, hother, hrecords, haudits, hhash⟩ := hopens (fun _ _ => true) (fun _ _ => rfl) s
    obtain ⟨_, _, _, hopened⟩ := fdReplayOpen_eq_ok hopen
    obtain ⟨_, _, _, hopened'⟩ := fdReplayOpen_eq_ok hother
    obtain ⟨hsame, hsameAudits, hsameHash⟩ := hopened.same hopened'
    have hempty : replay.audits = [] := hsameAudits.trans (haudits.trans hnone)
    have hcount : replay.records.length = state.decisions.length := by
      rw [hsame, hrecords, hlength]
    have hclock : state.world.tick.toNat = 24 * state.decisions.length := by
      have htick : state.world.tick.toNat = first.tick.toNat + 24 * state.decisions.length :=
        hplays.tick
      rw [htick, hbuildable.tickZero, UInt64.toNat_zero, Nat.zero_add]
    refine ⟨⟨_, fdReplayGetInfo_eq replay, ?_, ?_⟩, hempty, ?_⟩
    · rw [hcount]
      exact decisionWord_eq hclock
    · rw [hempty]
      rfl
    · exact hplays.finalHash hfirst.valid (hsame.trans hrecords) (hsameHash.trans hhash)

end retracing

/-- Whatever was called before and whatever failed meanwhile, folding the stored decisions of any
world over its stored save ends in the live world, and a replay that is built of them opens with
one decision for each period of the clock, no audits, and the live state at its end. -/
theorem stored_history_exact (host : Host) (calls : List Call) (index : Nat) :
    ∃ p q result, Program.start.run host calls = some p ∧
      buildReplay host index none p = (.ok result, q) ∧
      (∀ state ∈ p.worlds, state.Retraced host) ∧
      ∀ bytes, result = .ok bytes → ∃ state, p.worlds[index]? = some state ∧
        ReplaysTo host.context bytes state.world := by
  obtain ⟨p, hrun, hsound⟩ := run_sound (sound_start host) calls
  have hretraced : ∀ state ∈ p.worlds, state.Retraced host :=
    fun state hstate => (hsound.exact state hstate).retraced
  have hend := @ends_buildReplay host p.holdings index none p rfl
  rcases hbody : buildReplay host index none p with ⟨e | failure | bytes, q⟩
  · rw [hbody] at hend
    exact hend.elim
  · refine ⟨p, q, .error failure, hrun, hbody, hretraced, ?_⟩
    intro bytes hbytes
    cases hbytes
  · rw [hbody] at hend
    obtain ⟨-, state, hstate, hbuilt⟩ := hend
    refine ⟨p, q, .ok bytes, hrun, hbody, hretraced, ?_⟩
    intro same hsame
    cases hsame
    have hexact := hsound.exact state (List.mem_of_getElem? hstate)
    exact ⟨state, hstate, hexact.replaysTo hbuilt⟩

section sample

theorem sample_room : 1024 * sizeofFdJointDecision.toNat < 9223372036854775808 := by decide

/-- A thousand decisions fit, and nothing throws. -/
def sampleHost : Host := ⟨sampleContext, fun _ => none, uint64Max, 1024, sample_room⟩

theorem sampleHost_steady : sampleHost.Steady := fun _ => rfl

theorem sampleAt_loadsTo {tick : UInt64} (h : tick % fdOperationalTicks = 0)
    (hlast : tick ≤ lastStepTick) :
    LoadsTo sampleContext (saveBytes (sampleAt tick)) (sampleAt tick) :=
  loadsTo_saveBytes (sampleAt_sound h) hlast (sampleAt_fits tick h)

theorem perform_of_ok {α : Type} {body : Proc (Except Fail α)} {keep : α → Program → Program}
    {p q : Program} {value : α} (h : body p = (.ok (.ok value), q)) :
    p.perform body keep = some (keep value q, .ok ()) := by
  unfold Program.perform
  rw [h]

theorem call_load (host : Host) (p : Program) (bytes : List UInt8) :
    p.call host (.load bytes) = p.perform (load host bytes) Program.addWorld := rfl

theorem call_stepExplicitPass (host : Host) (p : Program) (index : Nat) :
    p.call host (.stepExplicitPass index) =
      p.perform (stepExplicitPass host index) fun _ p => p := rfl

theorem load_sample : ∃ p, Program.start.call sampleHost (.load (saveBytes (sampleAt 0))) =
      some (p, .ok ()) ∧ p.worlds = [⟨sampleAt 0, saveBytes (sampleAt 0), [], 0⟩] := by
  have hloads : LoadsTo sampleContext (saveBytes (sampleAt 0)) (sampleAt 0) :=
    sampleAt_loadsTo rfl (by decide)
  have hlength : (saveBytes (sampleAt 0)).length ≤ uint64Max := by
    rw [saveBytes_length]
    exact (sampleAt_fits 0 rfl).trans (by decide)
  have hend := @ends_load_of_loadsTo sampleHost Program.start.holdings (sampleAt 0)
    sampleHost_steady sampleContext_neverFails rfl _ hloads hlength Program.start rfl
  rcases hbody : load sampleHost (saveBytes (sampleAt 0)) Program.start with ⟨e | failure | state, q⟩
  · rw [hbody] at hend
    exact hend.elim
  · rw [hbody] at hend
    exact hend.elim
  · rw [hbody] at hend
    obtain ⟨hstate, hview⟩ := hend
    have hworlds : q.worlds = [] := congrArg Holdings.worlds hview
    refine ⟨Program.addWorld state q, ?_, ?_⟩
    · rw [call_load]
      exact perform_of_ok hbody
    · rw [Program.addWorld, hworlds, hstate]
      rfl

/-- The sample, loaded and stepped once. -/
theorem run_sample : ∃ p, Program.start.run sampleHost
      [.load (saveBytes (sampleAt 0)), .stepExplicitPass 0] = some p ∧
    ∃ capacity, p.worlds = [⟨stepWorld (sampleAt 0), saveBytes (sampleAt 0), [(sampleAt 0).pass],
      capacity⟩] := by
  obtain ⟨q, hload, hworlds⟩ := load_sample
  obtain ⟨q', result, hcall, hsound, -⟩ :=
    call_survives (sound_start sampleHost) (.load (saveBytes (sampleAt 0)))
  obtain ⟨rfl, -⟩ := Prod.mk.inj (Option.some.inj (hload.symm.trans hcall))
  have hfirst : q.worlds[0]? = some ⟨sampleAt 0, saveBytes (sampleAt 0), [], 0⟩ := by
    rw [hworlds]
    rfl
  have hready : StepReady sampleHost q.holdings 0 := ⟨_, hfirst, by decide, by decide⟩
  have hend := ends_stepExplicitPass hsound.live 0 q rfl
  rcases hbody : stepExplicitPass sampleHost 0 q with ⟨e | failure | out, p⟩
  · rw [hbody] at hend
    exact hend.elim
  · rw [hbody] at hend
    exact absurd hready (hend.2 sampleHost_steady)
  · rw [hbody] at hend
    obtain ⟨state, capacity, hstate, -, -, -, hview⟩ := hend
    obtain rfl := Option.some.inj (hfirst.symm.trans hstate)
    have hstep : q.call sampleHost (.stepExplicitPass 0) = some (p, .ok ()) := by
      rw [call_stepExplicitPass]
      exact perform_of_ok hbody
    refine ⟨p, ?_, capacity, ?_⟩
    · rw [Program.run, hload, Option.bind_some, Program.run, hstep]
      rfl
    · have hset : p.worlds = q.worlds.set 0 _ := congrArg Holdings.worlds hview
      rw [hset, hworlds]
      rfl

theorem sample_replayTotal : replayTotal (sampleAt 0) 1 0 ≤ 4194304 := by
  have hsize := saveSize_le (@sampleAt_sound 0 rfl).bounded
  unfold replayTotal
  generalize saveSize (sampleAt 0) = size at hsize ⊢
  omega

/-- The replay of the sample's history is built and opens with one record. -/
theorem history_replay_sample : ∃ p q bytes replay,
    Program.start.run sampleHost [.load (saveBytes (sampleAt 0)), .stepExplicitPass 0] = some p ∧
      buildReplay sampleHost 0 none p = (.ok (.ok bytes), q) ∧
      (fdReplayOpen sampleContext bytes Ledger.zero).1 = .ok replay ∧
      replay.records.map ReplayRecord.decision = [(sampleAt 0).pass] := by
  obtain ⟨p', hsample, capacity, hworlds⟩ := run_sample
  obtain ⟨p, q, result, hrun, hbuild, hok, herror⟩ := history_replay sampleHost
    [.load (saveBytes (sampleAt 0)), .stepExplicitPass 0] 0
  obtain rfl := Option.some.inj (hsample.symm.trans hrun)
  have hfirst : p'.worlds[0]? = some ⟨stepWorld (sampleAt 0), saveBytes (sampleAt 0),
      [(sampleAt 0).pass], capacity⟩ := by
    rw [hworlds]
    rfl
  cases result with
  | error failure =>
      have hlarge := herror failure rfl sampleHost_steady sampleContext_neverFails _ (sampleAt 0)
        hfirst (sampleAt_loadsTo rfl (by decide)) rfl (show 1 / 1024 ≤ uint32Max by decide)
      exact absurd sample_replayTotal (not_le.mpr hlarge)
  | ok bytes =>
      obtain ⟨state, hstate, hopens⟩ := hok bytes rfl
      obtain rfl := Option.some.inj (hfirst.symm.trans hstate)
      obtain ⟨replay, hopen, hdecisions, -⟩ := hopens sampleContext_neverFails Ledger.zero
      exact ⟨p', q, bytes, replay, hsample, hbuild, hopen, hdecisions⟩

/-- The sample's history is built. -/
theorem build_sample : ∃ p q bytes state,
    Program.start.run sampleHost [.load (saveBytes (sampleAt 0)), .stepExplicitPass 0] = some p ∧
      buildReplay sampleHost 0 none p = (.ok (.ok bytes), q) ∧
      p.worlds[0]? = some state ∧ state.world = stepWorld (sampleAt 0) := by
  obtain ⟨p, hsample, capacity, hworlds⟩ := run_sample
  obtain ⟨p', hrun, hsound⟩ := run_sound (sound_start sampleHost)
    [.load (saveBytes (sampleAt 0)), .stepExplicitPass 0]
  obtain rfl := Option.some.inj (hsample.symm.trans hrun)
  have hfirst : p.worlds[0]? = some ⟨stepWorld (sampleAt 0), saveBytes (sampleAt 0),
      [(sampleAt 0).pass], capacity⟩ := by
    rw [hworlds]
    rfl
  have hend := @ends_buildReplay sampleHost p.holdings 0 none p rfl
  rcases hbody : buildReplay sampleHost 0 none p with ⟨e | failure | bytes, q⟩
  · rw [hbody] at hend
    exact hend.elim
  · have hlarge := total_of_buildReplay_error hsound hbody sampleHost_steady sampleContext_neverFails
      hfirst (sampleAt_loadsTo rfl (by decide)) rfl (show 1 / 1024 ≤ uint32Max by decide)
    exact absurd sample_replayTotal (not_le.mpr hlarge)
  · exact ⟨p, q, bytes, _, hsample, hbody, hfirst, rfl⟩

/-- The replay of the sample's history ends in the sample, stepped once. -/
theorem stored_history_exact_sample : ∃ p q bytes,
    Program.start.run sampleHost [.load (saveBytes (sampleAt 0)), .stepExplicitPass 0] = some p ∧
      buildReplay sampleHost 0 none p = (.ok (.ok bytes), q) ∧
      ReplaysTo sampleContext bytes (stepWorld (sampleAt 0)) := by
  obtain ⟨p, q, bytes, state, hsample, hbuilt, hstate, hworld⟩ := build_sample
  obtain ⟨p', q', result, hrun, hbuild, -, hreplays⟩ := stored_history_exact sampleHost
    [.load (saveBytes (sampleAt 0)), .stepExplicitPass 0] 0
  obtain rfl := Option.some.inj (hsample.symm.trans hrun)
  have hsame : (Except.ok (Except.ok bytes), q) = (Except.ok result, q') := hbuilt.symm.trans hbuild
  cases hsame
  obtain ⟨live, hlive, hfile⟩ := hreplays bytes rfl
  obtain rfl := Option.some.inj (hstate.symm.trans hlive)
  rw [hworld] at hfile
  exact ⟨p, q, bytes, hsample, hbuilt, hfile⟩

end sample

end FrontierDirectorate.Cpp
