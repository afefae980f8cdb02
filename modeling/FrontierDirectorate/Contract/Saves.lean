import Mathlib
import FrontierDirectorate.Core.Preimage
import FrontierDirectorate.Core.Runs

/-!
# Saves

The save of a live world is read back, a current file is written again as it is,
and the state digest commits to what a save stores.
-/
namespace FrontierDirectorate
open Checks

section sample

/-- A 32 by 16 map: water west of column 9, the river on row 4, the road on row 5 and column 29. -/
def sampleTile (index : Nat) : Tile :=
  let x := index % 32
  let y := index / 32
  if x < 9 then { Tile.zero with terrain := fdTerrainWater, rainfallMm := 1400 }
  else
    let terrain :=
      if (x = 9 ∧ y = 5) ∨ (x = 29 ∧ y = 13) then fdTerrainSettlement
      else if x = 30 ∧ y = 4 then fdTerrainHills
      else if x = 20 ∧ y = 3 then fdTerrainWetlands
      else if x = 20 ∧ y = 10 then fdTerrainForest
      else fdTerrainGrassland
    let river := if y = 4 ∧ x ≤ 30 then fdTileOverlayRiver else 0
    let outlet := if y = 4 ∧ x = 9 then fdTileRiverOutlet else 0
    let road := if (y = 5 ∧ x ≤ 29) ∨ (x = 29 ∧ 5 ≤ y ∧ y ≤ 13) then fdTileOverlayRoadCandidate
      else 0
    { elevationCm := Int32.ofNat (91 + x)
      rainfallMm := 800
      settlementId := if x = 9 ∧ y = 5 then fdMakeEntityId 2
        else if x = 29 ∧ y = 13 then fdMakeEntityId 3 else 0
      terrain := terrain
      overlays := river ||| outlet ||| road }

@[irreducible] def sampleTiles : List Tile := (List.range 512).map sampleTile

theorem sampleTiles_length : sampleTiles.length = 512 := by
  unfold sampleTiles
  exact (List.length_map sampleTile).trans List.length_range

def sampleEntity (slot kind x y owner : UInt32) : Entity where
  id := fdMakeEntityId slot
  kind := kind
  x := x
  y := y
  regionId := fdMakeEntityId 1
  ownerId := fdMakeEntityId owner
  name := asciiBytes "Haven"

def sampleConfig : WorldConfig := { fdWorldConfigInit with width := 32, height := 16 }

/-- The map with its owners, before the state digest is computed. -/
def sampleMap : World where
  config := sampleConfig
  rootSeedLe := List.Vector.replicate 16 0
  content := ⟨[], Nat.zero_le _⟩
  configurationSha256 := fdHashConfigInternal sampleConfig
  contentSha256 := fdHashContentInternal []
  tick := 0
  tiles := sampleTiles
  entities :=
    let offMap := UInt32.ofNat uint32Max
    ⟨[sampleEntity 1 fdEntityRegion offMap offMap 4,
      sampleEntity 2 fdEntitySettlementCoastal 9 5 4,
      sampleEntity 3 fdEntitySettlementInland 29 13 4,
      sampleEntity 4 fdEntityPolityLocal offMap offMap 4,
      sampleEntity 5 fdEntityFactionForeign offMap offMap 5,
      sampleEntity 6 fdEntityFactionForeign offMap offMap 6], rfl⟩
  region := {
    id := fdMakeEntityId 1
    politicalOwnerId := fdMakeEntityId 4
    settlementIds := ⟨[fdMakeEntityId 2, fdMakeEntityId 3], rfl⟩
    foreignFactionIds := ⟨[fdMakeEntityId 5, fdMakeEntityId 6], rfl⟩
    riverOutletTileId := 138
    roadStartTileId := 170
    roadEndTileId := 446
    riverTileCount := 22
    roadTileCount := 29 }
  riverTileCount := 22
  roadTileCount := 29
  landTileCount := 368
  riverRaisedTileCount := 0
  riverMinCarveCm := 0
  allocationSize := 13832
  stateSha256 := Digest.zero

set_option maxRecDepth 20000 in
theorem sampleMap_valid : sampleMap.Valid := by decide +kernel

/-- The sample as a live world at the given tick. -/
def sampleAt (tick : UInt64) : World := fdWorldComputeHash { sampleMap with tick := tick }

abbrev sampleContext : FdContext := ⟨4194304, 4194304, fun _ _ => true⟩

theorem sampleContext_neverFails : sampleContext.NeverFails := fun _ _ => rfl

theorem sampleAt_sound {tick : UInt64} (h : tick % fdOperationalTicks = 0) :
    (sampleAt tick).Sound sampleContext where
  config := ⟨rfl, rfl, rfl⟩
  inputs := by
    change InputsValid sampleConfig (contentManifest [])
    exact inputsValid_iff.mp (by decide)
  densities := by
    change sampleConfig.forestDensityPpm ≠ 0 ∧ sampleConfig.hillDensityPpm ≠ 0 ∧
      sampleConfig.wetlandDensityPpm ≠ 0
    decide
  liveBound := by
    have hcount : (sampleAt tick).tileCount = 512 := sampleTiles_length
    rw [hcount]
    decide
  allocation := by
    have hcount : (sampleAt tick).tileCount = 512 := sampleTiles_length
    rw [hcount]
    rfl
  configDigest := rfl
  contentDigest := rfl
  stateHash := (stateDigest_computeHash _).symm
  tick := h
  valid := SameMap.valid_of_valid (v := sampleMap) ⟨rfl, rfl, rfl, rfl, rfl⟩ rfl rfl rfl
    sampleMap_valid
  names := by
    change ∀ entity ∈ sampleMap.entities.toList, fdU01NameValid entity.name = true
    decide

theorem sampleAt_fits (tick : UInt64) (h : tick % fdOperationalTicks = 0) :
    saveSize (sampleAt tick) ≤ sampleContext.maxFileBytes.toNat :=
  (saveSize_le (sampleAt_sound h).bounded).trans (by decide)

/-- The loader returns the sample from its save. -/
theorem sampleAt_loads {tick : UInt64} (h : tick % fdOperationalTicks = 0)
    (hlast : tick ≤ lastStepTick) (s : Ledger) :
    (fdWorldLoad sampleContext (saveBytes (sampleAt tick)) s).1 = .ok (sampleAt tick) :=
  fdWorldLoad_of_loadsTo sampleContext_neverFails
    (loadsTo_saveBytes (sampleAt_sound h) hlast (sampleAt_fits tick h)) s

/-- Passing is always accepted while the clock has room. -/
theorem World.pass_accepted {world : World} (h : world.Valid) (htick : world.tick ≤ lastStepTick) :
    fdWorldStep world world.pass stepOut =
      (stepWorld world, .ok (acceptedResult world world.pass)) := by
  refine fdWorldStep_accepted (by decide) ⟨?_, htick, h⟩
  constructor <;> simp [World.pass, fdInputStructValid, fdOutputStructValid, JointDecision.header,
    Action.header, -List.Vector.replicate_succ]

end sample

/-- Agreement in every field the format carries. -/
structure World.SameAuthority (v w : World) : Prop where
  config : v.config = w.config
  seed : v.rootSeedLe = w.rootSeedLe
  content : v.content = w.content
  configurationDigest : v.configurationSha256 = w.configurationSha256
  contentDigest : v.contentSha256 = w.contentSha256
  tick : v.tick = w.tick
  tiles : v.tiles = w.tiles
  entities : v.entities = w.entities
  region : v.region = w.region
  counts : v.landTileCount = w.landTileCount ∧ v.riverTileCount = w.riverTileCount ∧
    v.roadTileCount = w.roadTileCount
  stateDigest : v.stateSha256 = w.stateSha256

theorem World.reloaded_sameAuthority (world : World) : world.reloaded.SameAuthority world :=
  ⟨rfl, rfl, rfl, rfl, rfl, rfl, rfl, rfl, rfl, ⟨rfl, rfl, rfl⟩, rfl⟩

section roundTrip

variable {context : FdContext} {origin world : World} {visited : List World}

/-- A world that was created and then stepped is saved, and its save loads to the same state. -/
theorem save_then_load (hcontext : context.NeverFails) (hcreated : Created context origin)
    (hrun : AcceptedRun origin visited world) (htick : world.tick ≤ lastStepTick)
    (hsize : (saveBytes world).length ≤ context.maxFileBytes.toNat) {capacity : Nat}
    (hcapacity : (saveBytes world).length ≤ capacity) (s : Ledger) :
    fdWorldSave context world capacity = .ok (saveBytes world) ∧
      ∃ loaded, (fdWorldLoad context (saveBytes world) s).1 = .ok loaded ∧
        loaded.SameAuthority world := by
  have hsound : world.Sound context := hrun.sound hcreated.sound.1
  rw [saveBytes_length] at hsize hcapacity
  refine ⟨fdWorldSave_eq hsound.bounded hsize hcapacity, world.reloaded, ?_,
    world.reloaded_sameAuthority⟩
  exact fdWorldLoad_of_loadsTo hcontext (loadsTo_saveBytes hsound htick hsize) s

/-- A loaded world that has taken one step. -/
theorem save_then_load_sample :
    fdWorldSave sampleContext (stepWorld (sampleAt 0)) 4194304 =
        .ok (saveBytes (stepWorld (sampleAt 0))) ∧
      ∃ loaded, (fdWorldLoad sampleContext (saveBytes (stepWorld (sampleAt 0))) Ledger.zero).1 =
        .ok loaded ∧ loaded.SameAuthority (stepWorld (sampleAt 0)) := by
  have hsound : (sampleAt 0).Sound sampleContext := sampleAt_sound rfl
  have hcreated : Created sampleContext (sampleAt 0) :=
    .loaded (sampleAt_loads rfl (by decide) Ledger.zero)
  have hrun : AcceptedRun (sampleAt 0) [sampleAt 0] (stepWorld (sampleAt 0)) :=
    .cons (World.pass_accepted hsound.valid (by decide)) (.nil _)
  have hsize : (saveBytes (stepWorld (sampleAt 0))).length ≤ 1000000 := by
    rw [saveBytes_length]
    exact saveSize_le (hrun.sound hsound).bounded
  exact save_then_load sampleContext_neverFails hcreated hrun (by decide) (hsize.trans (by decide))
    (hsize.trans (by decide)) _

end roundTrip

section closure

variable {context : FdContext} {allocate : Nat → UInt64 → Bool} {bytes saved : List UInt8}
  {s s' : Ledger} {first last : World} {visited : List World} {capacity : Nat}

/-- After any accepted steps on a loaded world, its save is loaded again exactly when every step
left the clock room for one more. -/
theorem save_reloads_iff (hcontext : context.NeverFails)
    (hload : (fdWorldLoad (context.allocating allocate) bytes s).1 = .ok first)
    (hrun : AcceptedRun first visited last)
    (hsave : fdWorldSave context last capacity = .ok saved) :
    (∃ reloaded, (fdWorldLoad context saved s').1 = .ok reloaded) ↔
      ∀ world ∈ visited, world.tick ≤ lastStepTick - fdOperationalTicks := by
  obtain ⟨hfirst, hfirstTick⟩ := Created.sound (.loaded hload)
  have hlast : last.Sound context := hrun.sound hfirst
  obtain ⟨rfl, hmax, -⟩ := (fdWorldSave_eq_ok_iff hlast.bounded).mp hsave
  rw [← hrun.last_tick_le_iff hfirstTick]
  constructor
  · rintro ⟨reloaded, hreload⟩
    exact ((loadsTo_saveBytes_iff hlast hmax).mp (fdWorldLoad_loadsTo hreload)).1
  · intro htick
    exact ⟨_, fdWorldLoad_of_loadsTo hcontext (loadsTo_saveBytes hlast htick hmax) s'⟩

/-- The last loadable tick: the loader takes it, and so does the step. -/
abbrev lastLoadableTick : UInt64 := UInt64.ofNat uint64Max - 39

/-- The sample loaded at the last loadable tick takes a step after which its save is refused. -/
theorem save_refused_after_step :
    (fdWorldLoad sampleContext (saveBytes (sampleAt lastLoadableTick)) Ledger.zero).1 =
        .ok (sampleAt lastLoadableTick) ∧
      fdWorldStep (sampleAt lastLoadableTick) (sampleAt lastLoadableTick).pass stepOut =
        (stepWorld (sampleAt lastLoadableTick),
          .ok (acceptedResult (sampleAt lastLoadableTick) (sampleAt lastLoadableTick).pass)) ∧
      fdWorldSave sampleContext (stepWorld (sampleAt lastLoadableTick)) 1000000 =
        .ok (saveBytes (stepWorld (sampleAt lastLoadableTick))) ∧
      ∀ s reloaded, (fdWorldLoad sampleContext
        (saveBytes (stepWorld (sampleAt lastLoadableTick))) s).1 ≠ .ok reloaded := by
  have hsound : (sampleAt lastLoadableTick).Sound sampleContext := sampleAt_sound rfl
  have hstep := World.pass_accepted hsound.valid (show lastLoadableTick ≤ lastStepTick by decide)
  have hnext : (stepWorld (sampleAt lastLoadableTick)).Sound sampleContext :=
    Sound.stepWorld hsound (show lastLoadableTick ≤ lastStepTick by decide)
  have hsize := saveSize_le hnext.bounded
  have hmax : saveSize (stepWorld (sampleAt lastLoadableTick)) ≤
      sampleContext.maxFileBytes.toNat := hsize.trans (by decide)
  refine ⟨sampleAt_loads rfl (by decide) _, hstep, fdWorldSave_eq hnext.bounded hmax hsize, ?_⟩
  intro s reloaded hreload
  have hlate := ((loadsTo_saveBytes_iff hnext hmax).mp (fdWorldLoad_loadsTo hreload)).1
  exact absurd hlate (show ¬ lastLoadableTick + fdOperationalTicks ≤ lastStepTick by decide)

/-- One step from a loaded world at tick zero. -/
theorem save_reloads_iff_sample :
    (∃ reloaded, (fdWorldLoad sampleContext (saveBytes (stepWorld (sampleAt 0)))
        Ledger.zero).1 = .ok reloaded) ↔
      ∀ world ∈ [sampleAt 0], world.tick ≤ lastStepTick - fdOperationalTicks := by
  have hsound : (sampleAt 0).Sound sampleContext := sampleAt_sound rfl
  have hnext : (stepWorld (sampleAt 0)).Sound sampleContext := Sound.stepWorld hsound (by decide)
  have hsize := saveSize_le hnext.bounded
  exact save_reloads_iff (s := Ledger.zero) sampleContext_neverFails
    (sampleAt_loads rfl (by decide) Ledger.zero)
    (.cons (World.pass_accepted hsound.valid (by decide)) (.nil _))
    (fdWorldSave_eq hnext.bounded (hsize.trans (by decide)) hsize)

end closure

section canonical

variable {context : FdContext} {bytes : List UInt8} {s : Ledger} {world : World}

/-- A file of exactly the known sections, written by the current version. -/
def CurrentFile (bytes : List UInt8) : Prop :=
  ∃ sections, fdParseSaveSections bytes = .ok (sections, 11) ∧ CurrentVersion sections

/-- What the save of a world loaded from a current file can be. -/
theorem CurrentFile.saved_eq (hfile : CurrentFile bytes)
    (hload : (fdWorldLoad context bytes s).1 = .ok world) :
    saveBytes world = bytes ∧ saveSize world ≤ context.maxFileBytes.toNat := by
  obtain ⟨sections, hparse, hversion⟩ := hfile
  have hloads := fdWorldLoad_loadsTo hload
  have hsections : loadSections context bytes = .ok (sections, 11) := by
    obtain ⟨table, count, -, htable, -⟩ := hloads
    obtain ⟨-, -, -, -, hparsed⟩ := loadSections_eq_ok htable
    rw [htable, ← hparsed, hparse]
  have hsaved := saveBytes_of_loadsTo hsections hversion hloads
  refine ⟨hsaved, ?_⟩
  rw [← saveBytes_length, hsaved]
  exact (loadSections_eq_ok hsections).1

/-- A current file that loads is the save of the loaded world, so that two of them never load to
worlds that save identically. -/
theorem save_of_load (hload : (fdWorldLoad context bytes s).1 = .ok world)
    (hfile : CurrentFile bytes) :
    (∀ capacity, bytes.length ≤ capacity → fdWorldSave context world capacity = .ok bytes) ∧
      ∀ other otherWorld s' capacity capacity' saved,
        (fdWorldLoad context other s').1 = .ok otherWorld → CurrentFile other →
        fdWorldSave context world capacity = .ok saved →
        fdWorldSave context otherWorld capacity' = .ok saved → other = bytes := by
  obtain ⟨hsaved, hmax⟩ := hfile.saved_eq hload
  have hbounded := (fdWorldLoad_loadsTo hload).sound.1.bounded
  constructor
  · intro capacity hcapacity
    rw [← hsaved, saveBytes_length] at hcapacity
    exact (fdWorldSave_eq_ok_iff hbounded).mpr ⟨hsaved.symm, hmax, hcapacity⟩
  · intro other otherWorld s' capacity capacity' saved hother hotherFile hsave hsave'
    have hotherBounded := (fdWorldLoad_loadsTo hother).sound.1.bounded
    calc other = saveBytes otherWorld := (hotherFile.saved_eq hother).1.symm
      _ = saved := ((fdWorldSave_eq_ok_iff hotherBounded).mp hsave').1.symm
      _ = saveBytes world := ((fdWorldSave_eq_ok_iff hbounded).mp hsave).1
      _ = bytes := hsaved

theorem sample_currentFile : CurrentFile (saveBytes (sampleAt 0)) := by
  have hbounded := (@sampleAt_sound 0 rfl).bounded
  refine ⟨saveTable (sampleAt 0), fdParseSaveSections_saveBytes hbounded, ?_⟩
  constructor
  case manifestLength => rfl
  case versionLength => exact versionPayload_length _
  case fileMinor =>
    change fdLoadU16Le (manifestPayload.drop 2) = fdSaveVersionMinor
    decide
  all_goals
    change fdLoadU32Le ((versionPayload (sampleAt 0)).drop _) = _
    simp [versionPayload]

theorem save_of_load_sample :
    (∀ capacity, (saveBytes (sampleAt 0)).length ≤ capacity →
        fdWorldSave sampleContext (sampleAt 0) capacity = .ok (saveBytes (sampleAt 0))) ∧
      ∀ other otherWorld s' capacity capacity' saved,
        (fdWorldLoad sampleContext other s').1 = .ok otherWorld → CurrentFile other →
        fdWorldSave sampleContext (sampleAt 0) capacity = .ok saved →
        fdWorldSave sampleContext otherWorld capacity' = .ok saved →
        other = saveBytes (sampleAt 0) :=
  save_of_load (sampleAt_loads rfl (by decide) Ledger.zero) sample_currentFile

end canonical

section commitment

variable {v w : World}

/-- The sections without state of their own follow from the others. -/
theorem saveBytes_congr (hpayloads : ∀ tag ∈ stateTags, savePayload v tag = savePayload w tag)
    (hdigest : v.stateSha256 = w.stateSha256) : saveBytes v = saveBytes w := by
  have hconfig : configPayload v = configPayload w := hpayloads 3 (by decide)
  have hfields : encodeConfigFields v.config = encodeConfigFields w.config :=
    List.append_inj_left hconfig (by simp)
  obtain ⟨-, -, -, hgenerator, hruleset, -⟩ :=
    WorldConfig.normalized_inj.mp (encodeConfigFields_inj.mp hfields)
  have htable : tableFrames (saveTable v) = tableFrames (saveTable w) := by
    refine List.map_congr_left fun tag htag => ?_
    have hpayload : savePayload v tag.toNat = savePayload w tag.toNat := by
      simp only [knownTags, List.mem_cons, List.not_mem_nil, or_false] at htag
      rcases htag with rfl | rfl | rfl | rfl | rfl | rfl | rfl | rfl | rfl | rfl | rfl
      · rfl
      · change versionPayload v = versionPayload w
        rw [versionPayload, versionPayload, hgenerator, hruleset]
      · exact hpayloads 3 (by decide)
      · exact hpayloads 4 (by decide)
      · exact hpayloads 5 (by decide)
      · exact hpayloads 6 (by decide)
      · exact hpayloads 7 (by decide)
      · exact hpayloads 8 (by decide)
      · rfl
      · rfl
      · exact congrArg List.Vector.toList hdigest
    simp only [saveTable, hpayload]
  have hbody : saveBody v = saveBody w := by rw [saveBody_eq, saveBody_eq, htable]
  rw [saveBytes, saveBytes, hbody]

/-- The state sections do not store the state digest. -/
theorem savePayload_computeHash (world : World) {tag : Nat} (h : tag ∈ stateTags) :
    savePayload (fdWorldComputeHash world) tag = savePayload world tag := by
  simp only [stateTags, List.mem_cons, List.not_mem_nil, or_false] at h
  rcases h with rfl | rfl | rfl | rfl | rfl | rfl <;> rfl

/-- The preimage of the state digest and the state sections of the save determine each other.
Equal digests of differently saved worlds are a collision of the two preimages. -/
theorem stateStream_eq_iff_saved (hv : v.Valid) (hw : w.Valid) (hvcache : v.Coherent)
    (hwcache : w.Coherent) :
    (stateStream v = stateStream w ↔
        ∀ tag ∈ stateTags, savePayload v tag = savePayload w tag) ∧
      (stateStream v = stateStream w ↔ SameState v w) ∧
      ((fdWorldComputeHash v).stateSha256 = (fdWorldComputeHash w).stateSha256 →
        saveBytes (fdWorldComputeHash v) ≠ saveBytes (fdWorldComputeHash w) →
        stateStream v ≠ stateStream w ∧ fdSha256 (stateStream v) = fdSha256 (stateStream w)) := by
  have hvi := v.valid_iff.mp hv
  have hwi := w.valid_iff.mp hw
  have hstate := stateStream_inj hvi.bounded hwi.bounded
  have hsections : stateStream v = stateStream w ↔
      ∀ tag ∈ stateTags, savePayload v tag = savePayload w tag := by
    rw [hstate]
    exact ⟨payloads_of_sameState hvi hwi hvcache hwcache,
      sameState_of_payloads hvi.bounded hwi.bounded⟩
  refine ⟨hsections, hstate, fun hdigest hsaves => ⟨fun hstream => hsaves ?_, ?_⟩⟩
  · refine saveBytes_congr (fun tag htag => ?_) hdigest
    rw [savePayload_computeHash v htag, savePayload_computeHash w htag]
    exact hsections.mp hstream tag htag
  · rw [← stateDigest_eq, ← stateDigest_eq]
    exact hdigest

theorem stateStream_eq_iff_saved_sample :
    (stateStream (sampleAt 0) = stateStream (sampleAt 24) ↔ ∀ tag ∈ stateTags,
        savePayload (sampleAt 0) tag = savePayload (sampleAt 24) tag) ∧
      (stateStream (sampleAt 0) = stateStream (sampleAt 24) ↔
        SameState (sampleAt 0) (sampleAt 24)) ∧
      ((fdWorldComputeHash (sampleAt 0)).stateSha256 =
          (fdWorldComputeHash (sampleAt 24)).stateSha256 →
        saveBytes (fdWorldComputeHash (sampleAt 0)) ≠ saveBytes (fdWorldComputeHash (sampleAt 24)) →
        stateStream (sampleAt 0) ≠ stateStream (sampleAt 24) ∧
          fdSha256 (stateStream (sampleAt 0)) = fdSha256 (stateStream (sampleAt 24))) :=
  have hfirst := @sampleAt_sound 0 rfl
  have hlater := @sampleAt_sound 24 rfl
  stateStream_eq_iff_saved hfirst.valid hlater.valid ⟨hfirst.configDigest, hfirst.contentDigest⟩
    ⟨hlater.configDigest, hlater.contentDigest⟩

end commitment

end FrontierDirectorate
