import Mathlib
import FrontierDirectorate.Core.GenerateLaws
import FrontierDirectorate.Core.ReplayOpen
import FrontierDirectorate.Core.SaveRoundTrip

/-!
# What each call owns

Every call that allocates ends, on every exit, with what its result owns and
nothing else: a handle when one is published, and otherwise what it had before.
-/
namespace FrontierDirectorate
open Accounting Checks

/-- What a world owns: the structure, the tiles and a handle. -/
def World.owned (world : World) : Owned := (worldBytes + worldTileBytes world, 1)

/-- A call that publishes a value on success only. -/
def Owned.published {ε α : Type} (d : Owned) (cost : α → Owned) : Except ε α → Owned
  | .ok a => d + cost a
  | .error _ => d

theorem Owned.add_right_comm (d e f : Owned) : (d + e) + f = (d + f) + e := by
  simp only [Prod.ext_iff, Prod.fst_add, Prod.snd_add]
  constructor
  · rw [UInt64.add_assoc, UInt64.add_comm e.1, ← UInt64.add_assoc]
  · rw [UInt32.add_assoc, UInt32.add_comm e.2, ← UInt32.add_assoc]

theorem Owned.add_handle (d e : Owned) : ((d + e).1, (d + e).2 + 1) = d + (e + (0, 1)) := by
  simp [Prod.ext_iff, UInt32.add_assoc]

/-- A temporary block does not matter to what is published. -/
theorem Owned.published_withBytes {ε α : Type} (d : Owned) (size : UInt64) (cost : α → Owned)
    (r : Except ε α) : (d.withBytes size).published cost r = (d.published cost r).withBytes size := by
  cases r with
  | error e => rfl
  | ok a =>
      simp only [Owned.published, Owned.withBytes, Prod.ext_iff, Prod.fst_add, Prod.snd_add, and_true]
      rw [UInt64.add_assoc, UInt64.add_comm size, UInt64.add_assoc]

section worlds

variable {context : FdContext}

/-- A released block. -/
theorem holds_release (d : Owned) (size : UInt64) :
    Holds Ledger.owned (d.withBytes size) (fdContextFree true size) fun _ => d :=
  holds_free d true size

theorem holds_fdWorldDestroy (d : Owned) (world : World) :
    Holds Ledger.owned (d + world.owned) (fdWorldDestroy world) fun _ => d := by
  unfold fdWorldDestroy
  have hentry : d + world.owned =
      ((Owned.withBytes (d.1, d.2 + 1) worldBytes).withBytes (worldTileBytes world)) := by
    simp [World.owned, Owned.withBytes, Prod.ext_iff, UInt64.add_assoc]
  rw [hentry]
  refine holds_bind (holds_release _ _) fun _ => ?_
  refine holds_bind (holds_release _ _) fun _ => ?_
  exact holds_dropHandle d

/-- The decoder allocates what the loaded world releases. -/
theorem tileBytes_eq_of_decoded {sections : Sections} {count : Nat} {header : SaveHeader}
    {world : World} (hheader : decodeHeader context sections count = .ok header)
    (hbody : decodeBody header sections = .ok world) :
    worldTileBytes world = UInt64.ofNat header.tileBytes := by
  obtain ⟨entities, -, rfl⟩ := decodeBody_eq_ok_iff.mp hbody
  rw [worldTileBytes, loadedWorld_tileCount, (decodeHeader_eq_ok_iff.mp hheader).tileBytes]

theorem holds_fdDecodeWorld (context : FdContext) (d : Owned) (sections : Sections) (count : Nat) :
    Holds Ledger.owned d (fdDecodeWorld context sections count) (d.published World.owned) := by
  unfold fdDecodeWorld
  cases hheader : decodeHeader context sections count with
  | error failure => exact holds_pure rfl
  | ok header =>
      refine holds_bind (holds_alloc context d worldBytes) fun world => ?_
      cases world with
      | false => exact holds_pure rfl
      | true =>
          refine holds_bind (holds_alloc context _ _) fun tiles => ?_
          cases tiles with
          | false => exact holds_bind (holds_release d _) fun _ => holds_pure rfl
          | true =>
              cases hbody : decodeBody header sections with
              | error code =>
                  refine holds_bind (holds_release _ _) fun _ => ?_
                  exact holds_bind (holds_release d _) fun _ => holds_pure rfl
              | ok loaded =>
                  refine holds_bind (holds_addHandle _) fun _ => holds_pure ?_
                  simp [Owned.published, Owned.holding, World.owned, Owned.withBytes, Prod.ext_iff,
                    tileBytes_eq_of_decoded hheader hbody, UInt64.add_assoc]

theorem holds_fdWorldLoad (context : FdContext) (d : Owned) (bytes : List UInt8) :
    Holds Ledger.owned d (fdWorldLoad context bytes) (d.published World.owned) := by
  unfold fdWorldLoad
  cases loadSections context bytes with
  | error failure => exact holds_pure rfl
  | ok table => exact holds_fdDecodeWorld context d table.1 table.2

theorem holds_fdWorldCloneViaSave (context : FdContext) (d : Owned) (source : World) :
    Holds Ledger.owned d (fdWorldCloneViaSave context source) (d.published World.owned) := by
  unfold fdWorldCloneViaSave
  cases fdWorldSaveSize context source with
  | error failure => exact holds_pure rfl
  | ok size =>
      refine holds_bind (holds_alloc context d _) fun memory => ?_
      cases memory with
      | false => exact holds_pure rfl
      | true =>
          have hdone : ∀ result : Except Fail World, Holds Ledger.owned
              ((d.withBytes (UInt64.ofNat size)).published World.owned result)
              (do
                fdContextFree true (UInt64.ofNat size)
                return result) (d.published World.owned) := by
            intro result
            rw [Owned.published_withBytes]
            exact holds_bind (holds_release _ _) fun _ => holds_pure rfl
          cases fdWorldSave context source size with
          | error failure => exact holds_bind (holds_pure rfl) hdone
          | ok bytes => exact holds_bind (holds_fdWorldLoad context _ bytes) hdone

end worlds

section generation

variable {context : FdContext} {d : Owned} {draws : Draws} {attempt : UInt64}

theorem holds_elevationOctave (d : Owned) (world : World) (octave : Octave) :
    Holds Ledger.owned d (elevationOctave context draws attempt world octave) fun _ => d := by
  unfold elevationOctave
  refine holds_bind (holds_alloc context d _) fun memory => ?_
  cases memory with
  | false => exact holds_pure rfl
  | true => exact holds_bind (holds_release d _) fun _ => holds_pure rfl

theorem holds_elevationNext (d : Owned) (world : Except Halted World) (octave : Octave) :
    Holds Ledger.owned d (elevationNext context draws attempt world octave) fun _ => d := by
  cases world with
  | error halted => exact holds_pure rfl
  | ok world => exact holds_elevationOctave d world octave

theorem holds_fdApplyElevationFields (d : Owned) (world : World) :
    Holds Ledger.owned d (fdApplyElevationFields context draws attempt world) fun _ => d := by
  unfold fdApplyElevationFields
  exact holds_bind (holds_foldlM fun world octave => holds_elevationNext d world octave)
    fun _ => holds_pure rfl

/-- The four arrays are released whichever of them were allocated. -/
theorem holds_fdConstructRoad (d : Owned) (world : World) (start goal : Nat) :
    Holds Ledger.owned d (fdConstructRoad context draws world start goal attempt) fun _ => d := by
  unfold fdConstructRoad
  refine holds_bind (holds_alloc context _ _) fun distances => ?_
  refine holds_bind (holds_alloc context _ _) fun previous => ?_
  refine holds_bind (holds_alloc context _ _) fun positions => ?_
  refine holds_bind (holds_alloc context _ _) fun nodes => ?_
  generalize UInt64.ofNat (world.tileCount * 4) = size
  have hentry : ((((d.holding distances size).holding previous size).holding positions size).holding
      nodes size) = ((((d.holding nodes size).holding positions size).holding previous size).holding
        distances size) := by
    cases distances <;> cases previous <;> cases positions <;> cases nodes <;> rfl
  rw [hentry]
  refine holds_bind (holds_free _ distances size) fun _ => ?_
  refine holds_bind (holds_free _ previous size) fun _ => ?_
  refine holds_bind (holds_free _ positions size) fun _ => ?_
  exact holds_bind (holds_free d nodes size) fun _ => holds_pure rfl

theorem holds_fdGenerateCandidate (d : Owned) (world : World) (fallback : Bool) :
    Holds Ledger.owned d (fdGenerateCandidate context draws world attempt fallback)
      fun _ => d := by
  unfold fdGenerateCandidate
  cases layCandidate draws attempt fallback world with
  | error halted => exact holds_pure rfl
  | ok laid =>
      refine holds_bind (holds_fdApplyElevationFields d laid.2) fun raised => ?_
      cases raised with
      | error halted => exact holds_pure rfl
      | ok raised =>
          simp only
          cases populate draws laid.1 attempt fallback raised with
          | error rejected => exact holds_pure rfl
          | ok settled =>
              refine holds_bind (holds_fdConstructRoad d settled _ _) fun paved => ?_
              cases paved with
              | error halted => exact holds_pure rfl
              | ok paved => exact holds_pure rfl

theorem holds_runAttempts (d : Owned) (left attempt : Nat) (world : World)
    (report : GenerationReport) :
    Holds Ledger.owned d (runAttempts context draws left attempt world report) fun _ => d := by
  induction left generalizing attempt world report with
  | zero => exact holds_pure rfl
  | succ left ih =>
      refine holds_bind (holds_fdGenerateCandidate d world _) fun candidate => ?_
      cases candidate with
      | ok accepted => exact holds_pure rfl
      | error rejected =>
          exact holds_ite (fun _ => holds_pure rfl) fun _ => ih _ _ _

theorem holds_fdWorldGenerate (context : FdContext) (d : Owned) (config : WorldConfig)
    (seed : UInt64) (content : ContentManifest) (out : Option StructHeader) :
    Holds Ledger.owned d (fdWorldGenerate context config seed content out)
      fun r => d.published World.owned r.2 := by
  unfold fdWorldGenerate
  cases generateChecks config content out with
  | error failure => exact holds_pure rfl
  | ok _ =>
      refine holds_ite (fun _ => holds_pure rfl) fun _ => ?_
      refine holds_ite (fun _ => holds_pure rfl) fun _ => ?_
      refine holds_bind (holds_alloc context d _) fun memory => ?_
      cases memory with
      | false => exact holds_pure rfl
      | true =>
          refine holds_bind (holds_alloc context _ _) fun tiles => ?_
          cases tiles with
          | false => exact holds_bind (holds_release d _) fun _ => holds_pure rfl
          | true =>
              refine holds_bind_of (P := fun ran => ∀ w, ran.2 = .ok w →
                w.tileCount = config.width.toNat * config.height.toNat)
                (holds_runAttempts _ _ _ _ _) ?_ fun ran hran => ?_
              · intro s w hw
                exact (runAttempts_ok hw).1.tileCount.trans List.length_replicate
              · cases hresult : ran.2 with
                | error result =>
                    refine holds_bind (holds_release _ _) fun _ => ?_
                    exact holds_bind (holds_release d _) fun _ => holds_pure rfl
                | ok w =>
                    refine holds_bind (holds_addHandle _) fun _ => holds_pure ?_
                    simp [Owned.published, Owned.holding, World.owned, Owned.withBytes, Prod.ext_iff,
                      worldTileBytes, hran w hresult, UInt64.add_assoc]

end generation

section building

variable {context : FdContext}

theorem holds_fdReplayClassifyAttempts (context : FdContext) (d : Owned) (world : World)
    (decisions : List JointDecision) :
    Holds Ledger.owned d (fdReplayClassifyAttempts context world decisions) fun _ => d := by
  unfold fdReplayClassifyAttempts
  refine holds_ite (fun _ => holds_pure rfl) fun _ => ?_
  refine holds_bind (holds_fdWorldCloneViaSave context d world) fun clone => ?_
  cases clone with
  | error failure => exact holds_pure rfl
  | ok work => exact holds_bind (holds_fdWorldDestroy d work) fun _ => holds_pure rfl

theorem holds_measureReplay (context : FdContext) (d : Owned) (world : World)
    (decisions : List JointDecision) :
    Holds Ledger.owned d (measureReplay context world decisions) fun _ => d := by
  unfold measureReplay
  refine holds_ite (fun _ => holds_pure rfl) fun _ => ?_
  refine holds_bind (holds_fdReplayClassifyAttempts context d world decisions) fun classified => ?_
  cases classified with
  | error failure => exact holds_pure rfl
  | ok counts => exact holds_pure rfl

theorem holds_fdReplayBuildSize (context : FdContext) (d : Owned) (world : World)
    (decisions : List JointDecision) :
    Holds Ledger.owned d (fdReplayBuildSize context world decisions) fun _ => d := by
  unfold fdReplayBuildSize
  exact holds_bind (holds_measureReplay context d world decisions) fun _ => holds_pure rfl

theorem holds_fdReplayBuildInto (context : FdContext) (d : Owned) (world : World)
    (decisions : List JointDecision) (capacity : Nat) :
    Holds Ledger.owned d (fdReplayBuildInto context world decisions capacity) fun _ => d := by
  unfold fdReplayBuildInto
  refine holds_bind (holds_measureReplay context d world decisions) fun measured => ?_
  cases measured with
  | error failure => exact holds_pure rfl
  | ok counts =>
      refine holds_ite (fun _ => holds_pure rfl) fun _ => ?_
      cases writeTickZeroSave context world counts.1 counts.2.1 counts.2.2 with
      | error failure => exact holds_pure rfl
      | ok save =>
          refine holds_bind (holds_fdWorldCloneViaSave context d world) fun clone => ?_
          cases clone with
          | error failure => exact holds_pure rfl
          | ok work => exact holds_bind (holds_fdWorldDestroy d work) fun _ => holds_pure rfl

theorem holds_fdReplayBuild (context : FdContext) (d : Owned) (world : World)
    (decisions : List JointDecision) (capacity : Nat) :
    Holds Ledger.owned d (fdReplayBuild context world decisions capacity) fun _ => d := by
  unfold fdReplayBuild
  refine holds_bind (holds_fdReplayBuildSize context d world decisions) fun sized => ?_
  cases sized with
  | error failure => exact holds_pure rfl
  | ok required =>
      refine holds_ite (fun _ => holds_pure rfl) fun _ => ?_
      refine holds_bind (holds_alloc context d _) fun memory => ?_
      cases memory with
      | false => exact holds_pure rfl
      | true =>
          refine holds_bind (holds_fdReplayBuildInto context _ world decisions required) fun _ => ?_
          exact holds_bind (holds_release d _) fun _ => holds_pure rfl

end building

section opening

variable {context : FdContext}

/-- A load whose world is only looked at. -/
theorem holds_checkCheckpoints (context : FdContext) (d : Owned) (records : List ReplayRecord)
    (n checkpoint : Nat) (rest : List UInt8) :
    Holds Ledger.owned d (checkCheckpoints context records n checkpoint rest) fun _ => d := by
  induction n generalizing checkpoint rest with
  | zero => exact holds_pure rfl
  | succ n ih =>
      unfold checkCheckpoints
      refine holds_ite (fun _ => holds_pure rfl) fun _ => ?_
      refine holds_ite (fun _ => holds_pure rfl) fun _ => ?_
      refine holds_bind (holds_fdWorldLoad context d _) fun loaded => ?_
      cases loaded with
      | error failure => exact holds_pure rfl
      | ok world =>
          refine holds_bind (holds_fdWorldDestroy d world) fun _ => ?_
          exact holds_ite (fun _ => holds_pure rfl) fun _ => ih _ _

theorem holds_verifyReplay (context : FdContext) (d : Owned) (sections : Sections)
    (counts : ReplayCounts) (checkWorld : World) :
    Holds Ledger.owned d (verifyReplay context sections counts checkWorld) fun _ => d := by
  unfold verifyReplay
  simp only
  split
  · exact holds_pure rfl
  · next records audits _ =>
      refine holds_bind (holds_fdWorldLoad context d _) fun loaded => ?_
      cases loaded with
      | error failure => exact holds_pure rfl
      | ok world =>
          refine holds_bind (holds_fdWorldDestroy d world) fun _ => ?_
          cases mergeReplay world records audits counts.attempts with
          | error failure => exact holds_pure rfl
          | ok _ =>
              exact holds_bind (holds_checkCheckpoints context d records _ _ _) fun _ => holds_pure rfl

/-- The blocks of a replay. -/
def ReplayMemory.owned (memory : ReplayMemory) : Owned :=
  (replayBytes + memory.save + memory.records + memory.audits, 0)

/-- What a replay owns: its blocks and a handle. -/
def Replay.owned (replay : Replay) : Owned := replay.memory.owned + (0, 1)

theorem Owned.withBytes_zero (d : Owned) : d.withBytes 0 = d := by
  simp [Owned.withBytes]

/-- An array of no entries is neither allocated nor released. -/
theorem holds_releaseAny (d : Owned) (size : UInt64) :
    Holds Ledger.owned (d.withBytes size) (fdContextFree (size != 0) size) fun _ => d := by
  by_cases hsize : size = 0
  · rw [hsize, Owned.withBytes_zero]
    exact holds_free d false 0
  · have hmemory : (size != 0) = true := bne_iff_ne.mpr hsize
    rw [hmemory]
    exact holds_release d size

theorem holds_allocateAny {d : Owned} {size : UInt64} {β : Type} {f : Bool → StateM Ledger β}
    {ε : β → Owned} (hf : ∀ memory, Holds Ledger.owned (d.holding memory size) (f memory) ε) :
    Holds Ledger.owned d
      (if size = 0 then pure true >>= f else fdContextAlloc context size >>= f) ε := by
  refine holds_ite (fun hsize => ?_) fun _ => holds_bind (holds_alloc context d size) hf
  refine holds_bind (holds_pure (δ := fun memory => d.holding memory size) ?_) hf
  rw [hsize]
  exact (Owned.withBytes_zero d).symm

theorem withBytes_memory (d : Owned) (memory : ReplayMemory) :
    d + memory.owned = (((d.withBytes replayBytes).withBytes memory.save).withBytes
      memory.records).withBytes memory.audits := by
  simp [ReplayMemory.owned, Owned.withBytes, Prod.ext_iff, UInt64.add_assoc]

theorem holds_freeReplay (d : Owned) (memory : ReplayMemory) :
    Holds Ledger.owned (d + memory.owned) (freeReplay memory) fun _ => d := by
  rw [withBytes_memory]
  unfold freeReplay
  refine holds_bind (holds_releaseAny _ memory.audits) fun _ => ?_
  refine holds_bind (holds_releaseAny _ memory.records) fun _ => ?_
  refine holds_bind (holds_release _ memory.save) fun _ => ?_
  exact holds_release d replayBytes

theorem holds_allocateReplay (context : FdContext) (d : Owned) (memory : ReplayMemory) :
    Holds Ledger.owned d (allocateReplay context memory)
      (d.published fun _ => memory.owned) := by
  unfold allocateReplay
  refine holds_bind (holds_alloc context d _) fun handle => ?_
  cases handle with
  | false => exact holds_pure rfl
  | true =>
      refine holds_bind (holds_alloc context _ _) fun save => ?_
      cases save with
      | false => exact holds_bind (holds_release d _) fun _ => holds_pure rfl
      | true =>
          refine holds_allocateAny fun records => ?_
          cases records with
          | false =>
              refine holds_bind (holds_release _ _) fun _ => ?_
              exact holds_bind (holds_release d _) fun _ => holds_pure rfl
          | true =>
              refine holds_allocateAny fun audits => ?_
              cases audits with
              | false =>
                  refine holds_bind (holds_releaseAny _ _) fun _ => ?_
                  refine holds_bind (holds_release _ _) fun _ => ?_
                  exact holds_bind (holds_release d _) fun _ => holds_pure rfl
              | true => exact holds_pure (withBytes_memory d memory).symm

theorem holds_fdReplayOpen (context : FdContext) (d : Owned) (bytes : List UInt8) :
    Holds Ledger.owned d (fdReplayOpen context bytes) (d.published Replay.owned) := by
  unfold fdReplayOpen
  simp only
  split
  · exact holds_pure rfl
  · next sections counts _ =>
      refine holds_bind (holds_fdWorldLoad context d _) fun loaded => ?_
      cases loaded with
      | error failure => exact holds_pure rfl
      | ok checkWorld =>
          refine holds_ite (fun _ => ?_) fun _ => ?_
          · exact holds_bind (holds_fdWorldDestroy d checkWorld) fun _ => holds_pure rfl
          · cases replayMemory (sections 2).payload.length counts with
            | none => exact holds_bind (holds_fdWorldDestroy d checkWorld) fun _ => holds_pure rfl
            | some memory =>
                refine holds_bind (holds_allocateReplay context _ memory) fun allocated => ?_
                cases allocated with
                | error failure =>
                    exact holds_bind (holds_fdWorldDestroy d checkWorld) fun _ => holds_pure rfl
                | ok _ =>
                    have hentry : (d + checkWorld.owned) + memory.owned =
                        (d + memory.owned) + checkWorld.owned := Owned.add_right_comm _ _ _
                    simp only [Owned.published, hentry]
                    refine holds_bind (holds_fdWorldDestroy _ checkWorld) fun _ => ?_
                    refine holds_bind (holds_verifyReplay context _ sections counts checkWorld)
                      fun verified => ?_
                    cases verified with
                    | error failure =>
                        exact holds_bind (holds_freeReplay d memory) fun _ => holds_pure rfl
                    | ok lists =>
                        refine holds_bind (holds_addHandle _) fun _ => holds_pure ?_
                        exact Owned.add_handle d memory.owned

theorem holds_fdReplayDestroy (d : Owned) (replay : Replay) :
    Holds Ledger.owned (d + replay.owned) (fdReplayDestroy replay) fun _ => d := by
  have hentry : d + replay.owned = (d.1, d.2 + 1) + replay.memory.owned :=
    (Owned.add_handle d replay.memory.owned).symm.trans
      (by simp [ReplayMemory.owned])
  rw [hentry]
  unfold fdReplayDestroy
  exact holds_bind (holds_freeReplay _ replay.memory) fun _ => holds_dropHandle d

theorem holds_fdReplayAdvance (context : FdContext) (d : Owned) (replay : Replay) (world : World)
    (decisions : UInt64) (out : ReplayStatus) (sameContext : Bool) :
    Holds Ledger.owned d (fdReplayAdvance context replay world decisions out sameContext)
      fun _ => d := by
  unfold fdReplayAdvance
  cases advanceChecks replay world out sameContext with
  | error failure => exact holds_pure rfl
  | ok _ =>
      refine holds_ite (fun _ => holds_pure rfl) fun _ => ?_
      refine holds_bind (holds_fdWorldCloneViaSave context d world) fun clone => ?_
      cases clone with
      | error failure => exact holds_pure rfl
      | ok candidate =>
          refine holds_bind (holds_fdWorldDestroy d candidate) fun _ => ?_
          split <;> exact holds_pure rfl

end opening

end FrontierDirectorate
