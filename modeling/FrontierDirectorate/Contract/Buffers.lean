import Mathlib
import FrontierDirectorate.Contract.Replays
import FrontierDirectorate.Contract.Sessions
import FrontierDirectorate.Core.ReplayBufferLaws

/-!
# The caller's buffers

Both writers fill exactly the announced bytes of the buffer they are given, or refuse
and leave it as it was.
-/
namespace FrontierDirectorate
open Accounting Checks

/-- What a writer may give as the reason of a refusal. -/
def Fail.Limit (failure : Fail) : Prop :=
  failure.code = fdErrCapacity ∨ failure.code = fdErrOutOfMemory ∨
    failure.code = fdErrBufferTooSmall ∨ failure.code = fdErrState

section refusals

variable {context : FdContext} {world : World} {decisions : List JointDecision}

theorem limit_capacity (field item : UInt32) (message : String) :
    (fdDiagSet fdErrCapacity field item message).Limit := .inl rfl

theorem limit_outOfMemory (message : String) : (outOfMemory message).Limit := .inr (.inl rfl)

theorem fdWorldSaveSize_failure (context : FdContext) (world : World) :
    FailsWith Fail.Limit (fdWorldSaveSize context world) := by
  intro failure h
  unfold fdWorldSaveSize at h
  split at h
  · cases h
    exact limit_capacity _ _ _
  · split at h
    · cases h
      exact limit_capacity _ _ _
    · cases h

theorem fdWorldSave_failure (hworld : world.Bounded) (capacity : Nat) :
    FailsWith Fail.Limit (fdWorldSave context world capacity) := by
  intro failure h
  unfold fdWorldSave at h
  cases hsize : fdWorldSaveSize context world with
  | error failure' =>
      rw [hsize] at h
      cases h
      exact fdWorldSaveSize_failure context world _ hsize
  | ok required =>
      obtain ⟨rfl, -⟩ := (fdWorldSaveSize_eq_ok_iff hworld).mp hsize
      rw [hsize, ok_bind] at h
      by_cases hshort : capacity < saveSize world
      · rw [failIf_true hshort] at h
        cases h
        exact .inr (.inr (.inl rfl))
      · rw [failIf_bind_of_not hshort,
          failIf_bind_of_not (by rw [saveBytes_length, not_not])] at h
        cases h

/-- Loading what can be loaded fails for want of memory only. -/
theorem fdWorldLoad_failure {bytes : List UInt8} (h : LoadsTo context bytes world) (s : Ledger) :
    FailsWith Fail.Limit (fdWorldLoad context bytes s).1 := by
  obtain ⟨sections, count, header, hsections, hheader, hbody⟩ := h
  simp only [fdWorldLoad, hsections, fdDecodeWorld, hheader, hbody, run_bind, run_pure, run_ite]
  intro failure hfailure
  split at hfailure
  · cases hfailure
    exact limit_outOfMemory _
  · split at hfailure
    · cases hfailure
      exact limit_outOfMemory _
    · cases hfailure

theorem clone_failure (hsound : world.Sound context)
    (htick : world.tick ≤ UInt64.ofNat uint64Max - fdOperationalTicks) (s : Ledger) :
    FailsWith Fail.Limit (fdWorldCloneViaSave context world s).1 := by
  intro failure h
  unfold fdWorldCloneViaSave at h
  cases hsize : fdWorldSaveSize context world with
  | error failure' =>
      simp only [hsize, run_pure] at h
      cases h
      exact fdWorldSaveSize_failure context world _ hsize
  | ok size =>
      obtain ⟨rfl, hmax⟩ := (fdWorldSaveSize_eq_ok_iff hsound.bounded).mp hsize
      simp only [hsize, fdWorldSave_eq hsound.bounded hmax le_rfl, run_bind, run_ite, run_pure] at h
      split at h
      · cases h
        exact limit_outOfMemory _
      · exact fdWorldLoad_failure (loadsTo_saveBytes hsound htick hmax) _ _ h

/-- A valid world rejects only what an audit can carry, so classification stops at its bound
only. -/
theorem classify_failure (hvalid : world.Valid) (accepted audits : Nat)
    (decisions : List JointDecision) :
    FailsWith Fail.Limit (forEach decisions classifyAttempt ⟨world, accepted, audits⟩) := by
  induction decisions generalizing world accepted audits with
  | nil =>
      intro failure h
      cases h
  | cons decision rest ih =>
      rw [forEach_cons]
      cases hrefusal : stepRefusal world decision with
      | some failure =>
          have hauditable := (stepRefusal_auditable hrefusal).code
          simp only [classifyAttempt, fdWorldStep_of_valid hvalid, hrefusal, hauditable, if_true]
          by_cases hfull : audits = uint32Max
          · rw [if_pos hfull, error_bind]
            rintro _ ⟨⟩
            exact limit_capacity _ _ _
          · rw [if_neg hfull, ok_bind]
            exact ih hvalid accepted (audits + 1)
      | none =>
          simp only [classifyAttempt, fdWorldStep_of_valid hvalid, hrefusal, ok_bind]
          exact ih (valid_stepWorld hvalid) (accepted + 1) audits

theorem fdReplayClassifyAttempts_failure (hsound : world.Sound context) (htick : world.tick = 0)
    (s : Ledger) :
    FailsWith Fail.Limit (fdReplayClassifyAttempts context world decisions s).1 := by
  intro failure h
  unfold fdReplayClassifyAttempts at h
  split at h
  · cases h
    exact limit_capacity _ _ _
  · simp only [run_bind] at h
    cases hclone : (fdWorldCloneViaSave context world s).1 with
    | error failure' =>
        simp only [hclone, run_pure] at h
        cases h
        exact clone_failure hsound (htick ▸ by decide) s _ hclone
    | ok work =>
        obtain ⟨rfl, -, -⟩ := clone_eq_of_ok hsound hclone
        simp only [hclone, run_bind, run_pure] at h
        cases hloop : forEach decisions classifyAttempt ⟨world.reloaded, 0, 0⟩ with
        | error failure' =>
            rw [hloop] at h
            cases h
            exact classify_failure (valid_reloaded hsound.valid) 0 0 decisions _ hloop
        | ok counted =>
            rw [hloop] at h
            cases h

theorem replaySizesWithin_failure (accepted audits : Nat) :
    FailsWith Fail.Limit (replaySizesWithin context world accepted audits) := by
  intro failure h
  unfold replaySizesWithin at h
  split at h
  · cases h
    exact limit_capacity _ _ _
  · split at h
    · cases h
      exact limit_capacity _ _ _
    · cases h

theorem measureReplay_failure (hsound : world.Sound context) (s : Ledger) :
    FailsWith Fail.Limit (measureReplay context world decisions s).1 := by
  intro failure h
  unfold measureReplay at h
  split at h
  · cases h
    exact .inr (.inr (.inr rfl))
  · next htick =>
      simp only [run_bind] at h
      cases hclassified : (fdReplayClassifyAttempts context world decisions s).1 with
      | error failure' =>
          simp only [hclassified, run_pure] at h
          cases h
          exact fdReplayClassifyAttempts_failure hsound (not_not.mp htick) s _ hclassified
      | ok counts =>
          simp only [hclassified, run_pure] at h
          cases hsizes : replaySizesWithin context world counts.1 counts.2 with
          | error failure' =>
              rw [hsizes] at h
              cases h
              exact replaySizesWithin_failure _ _ _ hsizes
          | ok sizes =>
              rw [hsizes] at h
              cases h

/-- The second pass cannot fail in another way than the first and the clone. -/
theorem fdReplayBuildInto_failure (hsound : world.Sound context) (capacity : Nat) (s : Ledger) :
    FailsWith Fail.Limit (fdReplayBuildInto context world decisions capacity s).1 := by
  intro failure h
  unfold fdReplayBuildInto at h
  simp only [run_bind] at h
  cases hmeasured : (measureReplay context world decisions s).1 with
  | error failure' =>
      simp only [hmeasured, run_pure] at h
      cases h
      exact measureReplay_failure hsound s _ hmeasured
  | ok m =>
      obtain ⟨hbuildable, rfl⟩ := measureReplay_eq_ok hsound hmeasured
      simp only [hmeasured, measureOf, run_ite] at h
      split at h
      · cases h
        exact .inr (.inr (.inl rfl))
      · simp only [writeTickZeroSave_eq hsound hbuildable.fits, run_bind] at h
        cases hclone : (fdWorldCloneViaSave context world
            (measureReplay context world decisions s).2).1 with
        | error failure' =>
            simp only [hclone, run_pure] at h
            cases h
            refine clone_failure hsound ?_ _ _ hclone
            rw [hbuildable.tickZero]
            decide
        | ok work =>
            obtain ⟨rfl, -, -⟩ := clone_eq_of_ok hsound hclone
            simp only [hclone, run_bind, run_pure] at h
            have hwritten := (writeReplay_eq hsound hbuildable).symm.trans h
            cases hwritten

/-- How a build ends: with as many bytes as its size was announced, or refusing. -/
theorem fdReplayBuild_cases (hsound : world.Sound context) (capacity : Nat) (s : Ledger) :
    (∃ bytes, (fdReplayBuild context world decisions capacity s).1 = .ok bytes ∧
      bytes.length ≤ capacity ∧
      (fdReplayBuildSize context world decisions s).1 = .ok bytes.length) ∨
    ∃ failure, (fdReplayBuild context world decisions capacity s).1 = .error failure ∧
      failure.Limit := by
  unfold fdReplayBuild
  simp only [run_bind]
  cases hsize : (fdReplayBuildSize context world decisions s).1 with
  | error failure =>
      refine .inr ⟨failure, rfl, ?_⟩
      unfold fdReplayBuildSize at hsize
      simp only [run_bind, run_pure] at hsize
      cases hmeasured : (measureReplay context world decisions s).1 with
      | error failure' =>
          rw [hmeasured] at hsize
          cases hsize
          exact measureReplay_failure hsound s _ hmeasured
      | ok m =>
          rw [hmeasured] at hsize
          cases hsize
  | ok required =>
      have hrequired : required = replayTotal world (transcript world 0 decisions).records.length
          (transcript world 0 decisions).audits.length := by
        unfold fdReplayBuildSize at hsize
        simp only [run_bind, run_pure] at hsize
        cases hmeasured : (measureReplay context world decisions s).1 with
        | error failure' =>
            rw [hmeasured] at hsize
            cases hsize
        | ok m =>
            obtain ⟨-, rfl⟩ := measureReplay_eq_ok hsound hmeasured
            rw [hmeasured] at hsize
            exact (Except.ok.inj hsize).symm
      simp only [run_ite]
      by_cases hshort : capacity < required
      · rw [if_pos hshort]
        exact .inr ⟨_, rfl, .inr (.inr (.inl rfl))⟩
      · rw [if_neg hshort]
        simp only [run_bind, run_ite, run_pure]
        split
        · exact .inr ⟨_, rfl, limit_outOfMemory _⟩
        · cases hbuilt : (fdReplayBuildInto context world decisions required
            (fdContextAlloc context (UInt64.ofNat required)
              (fdReplayBuildSize context world decisions s).2).2).1 with
          | error failure =>
              exact .inr ⟨failure, rfl, fdReplayBuildInto_failure hsound required _ _ hbuilt⟩
          | ok bytes =>
              have hbytes := fdReplayBuildInto_eq_ok hsound hbuilt
              have hlength : bytes.length = required := by
                rw [hbytes, replayFile_length (transcript_messages hsound.valid 0 decisions),
                  hrequired]
              refine .inl ⟨bytes, ?_, by omega, by rw [hlength]⟩
              rw [ok_bind, failIf_bind_of_not (not_not.mpr hlength)]

theorem fdReplayBuildSize_of_buildable (h : Buildable context world decisions)
    (hsound : world.Sound context) (hcontext : context.NeverFails) (s : Ledger) :
    (fdReplayBuildSize context world decisions s).1 =
      .ok (replayTotal world (transcript world 0 decisions).records.length
        (transcript world 0 decisions).audits.length) := by
  unfold fdReplayBuildSize
  simp only [run_bind, run_pure, measureReplay_of_buildable h hsound hcontext]
  rfl

/-- What has been announced is built, if memory lasts. -/
theorem fdReplayBuild_of_buildSize (hsound : world.Sound context) (hcontext : context.NeverFails)
    {s : Ledger} {size capacity : Nat}
    (hsize : (fdReplayBuildSize context world decisions s).1 = .ok size) (hfits : size ≤ capacity) :
    (fdReplayBuild context world decisions capacity s).1 =
      .ok (replayFile world (transcript world 0 decisions).records
        (transcript world 0 decisions).audits) := by
  unfold fdReplayBuildSize at hsize
  simp only [run_bind, run_pure] at hsize
  cases hmeasured : (measureReplay context world decisions s).1 with
  | error failure =>
      rw [hmeasured] at hsize
      cases hsize
  | ok m =>
      obtain ⟨hbuildable, rfl⟩ := measureReplay_eq_ok hsound hmeasured
      rw [hmeasured] at hsize
      cases hsize
      exact fdReplayBuild_of_buildable hbuildable hsound hcontext hfits s

end refusals

/-- The call has put `size` bytes at the front of `buffer` and changed nothing behind them. -/
structure Filled.Exactly (filled : Filled) (buffer : List UInt8) (size : Nat) : Prop where
  result : filled.result = .ok ()
  written : filled.written = size
  length : filled.buffer.length = buffer.length
  rest : filled.buffer.drop size = buffer.drop size

/-- The call has refused: no byte is reported and none has changed. -/
structure Filled.Refused (filled : Filled) (buffer : List UInt8) : Prop where
  result : ∃ failure, filled.result = .error failure ∧ failure.Limit
  written : filled.written = 0
  buffer : filled.buffer = buffer

theorem exactly_front {buffer bytes : List UInt8} (h : bytes.length ≤ buffer.length) :
    Filled.Exactly ⟨.ok (), bytes.length, bytes ++ buffer.drop bytes.length⟩ buffer bytes.length where
  result := rfl
  written := rfl
  length := by
    rw [List.length_append, List.length_drop]
    omega
  rest := List.drop_left

section dichotomy

variable {context : FdContext} {world : World} {decisions : List JointDecision}
  {buffer : List UInt8} {capacity : Nat} {filled : Filled} {announced : Except Fail Nat}

/-- How a save ends: with the announced bytes, or refusing because they do not fit. -/
theorem fdWorldSaveInto_cases (hbounded : world.Bounded) (hcapacity : capacity ≤ buffer.length) :
    ∃ filled, fdWorldSaveInto context world buffer capacity = some filled ∧
      ((∃ size, fdWorldSaveSize context world = .ok size ∧ size ≤ capacity ∧
          fdWorldSave context world capacity = .ok (filled.buffer.take size) ∧
          filled.Exactly buffer size) ∨
        (∀ size, fdWorldSaveSize context world = .ok size → capacity < size) ∧
          filled.Refused buffer) := by
  refine ⟨_, fdWorldSaveInto_eq hcapacity hbounded, ?_⟩
  cases hsave : fdWorldSave context world capacity with
  | error failure =>
      refine .inr ⟨fun size hsize => ?_, ?_⟩
      · by_contra hfits
        obtain ⟨rfl, hmax⟩ := (fdWorldSaveSize_eq_ok_iff hbounded).mp hsize
        rw [fdWorldSave_eq hbounded hmax (not_lt.mp hfits)] at hsave
        cases hsave
      · exact ⟨⟨failure, rfl, fdWorldSave_failure hbounded capacity failure hsave⟩, rfl, rfl⟩
  | ok bytes =>
      obtain ⟨size, hsize, hrest⟩ := bind_eq_ok.mp hsave
      obtain ⟨hfits, hlast⟩ := failIf_bind_eq_ok.mp hrest
      obtain ⟨hlength, hbytes⟩ := failIf_bind_eq_ok.mp hlast
      obtain rfl := Except.ok.inj hbytes
      obtain rfl := not_not.mp hlength
      exact .inl ⟨_, hsize, not_lt.mp hfits, by simp only [List.take_left],
        exactly_front ((not_lt.mp hfits).trans hcapacity)⟩

/-- How a build ends in the caller's memory. -/
theorem fdReplayBuildAt_cases (hsound : world.Sound context)
    (temporary : (size : Nat) → List.Vector UInt8 size) (hcapacity : capacity ≤ buffer.length)
    (s : Ledger) :
    ∃ filled s', fdReplayBuildAt context temporary world decisions buffer capacity s =
        some (filled, s') ∧
      ((∃ size, (fdReplayBuildSize context world decisions s).1 = .ok size ∧ size ≤ capacity ∧
          (fdReplayBuild context world decisions capacity s).1 = .ok (filled.buffer.take size) ∧
          filled.Exactly buffer size) ∨
        (context.NeverFails → ∀ size,
          (fdReplayBuildSize context world decisions s).1 = .ok size → capacity < size) ∧
          filled.Refused buffer) := by
  refine ⟨_, _, fdReplayBuildAt_eq hsound temporary hcapacity s, ?_⟩
  have hcases := @fdReplayBuild_cases context world decisions hsound capacity s
  rcases hcases with ⟨bytes, hbuilt, hfits, hsize⟩ | ⟨failure, hbuilt, hlimit⟩
  · rw [hbuilt]
    exact .inl ⟨_, hsize, hfits, by simp only [List.take_left], exactly_front (hfits.trans hcapacity)⟩
  · rw [hbuilt]
    refine .inr ⟨fun hcontext size hsize => ?_, ⟨failure, rfl, hlimit⟩, rfl, rfl⟩
    by_contra hfits
    have hbuild := fdReplayBuild_of_buildSize hsound hcontext hsize (not_lt.mp hfits)
    rw [hbuilt] at hbuild
    cases hbuild

end dichotomy

section contract

variable {context : FdContext}

/-- Saving any live world of any session into the caller's memory stays inside it. When the
announced size fits, exactly that many bytes are written; otherwise nothing is. -/
theorem save_exactly_or_refused (calls : List Call) {live : LiveWorld}
    (h : live ∈ (Session.start.run context calls).worlds) {buffer : List UInt8} {capacity : Nat}
    (hcapacity : capacity ≤ buffer.length) :
    ∃ filled, fdWorldSaveInto context live.world buffer capacity = some filled ∧
      ((∃ size, fdWorldSaveSize context live.world = .ok size ∧ size ≤ capacity ∧
          fdWorldSave context live.world capacity = .ok (filled.buffer.take size) ∧
          filled.Exactly buffer size) ∨
        (∀ size, fdWorldSaveSize context live.world = .ok size → capacity < size) ∧
          filled.Refused buffer) :=
  fdWorldSaveInto_cases (faithful_run faithful_start calls live h).sound.bounded hcapacity

theorem sampleAt_live : LiveWorld.created (sampleAt 0) ∈
    (Session.start.run sampleContext [.load (saveBytes (sampleAt 0))]).worlds := by
  rw [Session.run_cons, Session.run_nil, load_sample_worlds Session.start rfl]
  exact List.mem_singleton.mpr rfl

/-- The sample, saved into a megabyte of sevens. -/
theorem save_exactly_or_refused_sample :
    ∃ filled, fdWorldSaveInto sampleContext (sampleAt 0) (List.replicate 1000000 7) 1000000 =
        some filled ∧
      filled.Exactly (List.replicate 1000000 7) (saveSize (sampleAt 0)) := by
  have hbounded := (@sampleAt_sound 0 rfl).bounded
  have hsize := fdWorldSaveSize_eq hbounded (sampleAt_fits 0 rfl)
  obtain ⟨filled, hfilled, hcases⟩ := save_exactly_or_refused
    [.load (saveBytes (sampleAt 0))] sampleAt_live
    (List.length_replicate (n := 1000000) (a := (7 : UInt8))).ge
  refine ⟨filled, hfilled, ?_⟩
  rcases hcases with ⟨size, hsame, -, -, hexactly⟩ | ⟨hshort, -⟩
  · obtain rfl := Except.ok.inj (hsize.symm.trans hsame)
    exact hexactly
  · exact absurd (saveSize_le hbounded) (not_le.mpr (hshort _ hsize))

/-- Building a replay of any decisions from any live world of any session, whatever the
allocator does and whatever its memory holds, stays inside the temporary block and the caller's
memory: exactly the announced bytes are written, or nothing is, and never for a layout mismatch. -/
theorem build_exactly_or_refused (calls : List Call) {live : LiveWorld}
    (h : live ∈ (Session.start.run context calls).worlds)
    (temporary : (size : Nat) → List.Vector UInt8 size) (decisions : List JointDecision)
    {buffer : List UInt8} {capacity : Nat} (hcapacity : capacity ≤ buffer.length) (s : Ledger) :
    ∃ filled s', fdReplayBuildAt context temporary live.world decisions buffer capacity s =
        some (filled, s') ∧
      ((∃ size, (fdReplayBuildSize context live.world decisions s).1 = .ok size ∧
          size ≤ capacity ∧
          (fdReplayBuild context live.world decisions capacity s).1 =
            .ok (filled.buffer.take size) ∧
          filled.Exactly buffer size) ∨
        (context.NeverFails → ∀ size,
          (fdReplayBuildSize context live.world decisions s).1 = .ok size → capacity < size) ∧
          filled.Refused buffer) :=
  fdReplayBuildAt_cases (faithful_run faithful_start calls live h).sound temporary hcapacity s

/-- A pass and a rejected attempt, built into four megabytes of sevens. -/
theorem build_exactly_or_refused_sample :
    ∃ filled s', fdReplayBuildAt sampleContext (fun size => List.Vector.replicate size 9)
        (sampleAt 0) sampleInput.entries (List.replicate 4194304 7) 4194304 Ledger.zero =
          some (filled, s') ∧
      ∃ size, filled.Exactly (List.replicate 4194304 7) size := by
  have hsize := fdReplayBuildSize_of_buildable sample_buildable (sampleAt_sound rfl)
    sampleContext_neverFails Ledger.zero
  obtain ⟨filled, s', hfilled, hcases⟩ := build_exactly_or_refused
    [.load (saveBytes (sampleAt 0))] sampleAt_live (fun size => List.Vector.replicate size 9)
    sampleInput.entries (List.length_replicate (n := 4194304) (a := (7 : UInt8))).ge Ledger.zero
  refine ⟨filled, s', hfilled, ?_⟩
  rcases hcases with ⟨size, -, -, -, hexactly⟩ | ⟨hshort, -⟩
  · exact ⟨size, hexactly⟩
  · have htotal := sample_buildable.total
    rw [sampleContext_maxFileBytes] at htotal
    exact absurd htotal (not_le.mpr (hshort sampleContext_neverFails _ hsize))

end contract

end FrontierDirectorate
