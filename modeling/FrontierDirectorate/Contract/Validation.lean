import Mathlib
import FrontierDirectorate.Core.CoastLaws
import FrontierDirectorate.Core.RiverLaws
import FrontierDirectorate.Core.RoadLaws
import FrontierDirectorate.Contract.Saves

/-!
# Validation

What the report of the validator says about the tiles of a map.
-/
namespace FrontierDirectorate
open Loops

section firstFailed

/-- The reported index is that of the first tile that breaks a rule, if there is one. -/
structure World.ReportsFirstBadTile (world : World) : Prop where
  clean : (∀ i < world.tileCount, world.TileRules i) →
    (fdWorldValidateInternal world).firstFailedTileIndex = uint32Max
  first : ∀ i < world.tileCount, ¬ world.TileRules i → (∀ j < i, world.TileRules j) →
    (fdWorldValidateInternal world).firstFailedTileIndex = i

/-- The first bad tile is reported exactly when no tile that breaks a rule other than the
known-terrain rule comes after another bad tile. -/
theorem reports_first_bad_tile_iff (world : World) (hbounds : world.boundsHold) :
    world.ReportsFirstBadTile ↔ ∀ i < world.tileCount, ¬ world.PlainRules i →
      ∀ j < i, world.TileRules j := by
  have hscan : world.Reported world.tileCount
      (fdWorldValidateInternal world).firstFailedTileIndex := reported_scan hbounds
  constructor
  · intro hfirst i hi hplain j hj
    by_contra hbad
    -- the pass reports `i` or a later tile, the first bad tile is `j` or an earlier one
    obtain ⟨first, ⟨hlt, hfirstBad⟩, hleast⟩ :=
      WellFounded.has_min wellFounded_lt {j | j < world.tileCount ∧ ¬ world.TileRules j}
        ⟨j, Nat.lt_trans hj hi, hbad⟩
    have hbefore : ∀ k < first, world.TileRules k := by
      intro k hk
      by_contra hrules
      exact hleast k ⟨Nat.lt_trans hk hlt, hrules⟩ hk
    have hreported := hfirst.first first hlt hfirstBad hbefore
    have hle := hscan.le_reported hi hplain
    rw [hreported] at hle
    exact hbad (hbefore j (Nat.lt_of_lt_of_le hj hle))
  · intro hcond
    refine ⟨hscan.eq_max, ?_⟩
    intro i hi hbad hbefore
    apply hscan.eq_first hi hbad hbefore
    intro j hj hplain
    by_contra hlt
    exact hbad (hcond j hj hplain i (Nat.lt_of_not_le hlt))

/-- The sample map with too much rain on its first tile. -/
def soakedMap : World := sampleMap.modifyTile 0 fun tile => { tile with rainfallMm := 6000 }

theorem soakedMap_tileCount : soakedMap.tileCount = 512 := by
  simp only [soakedMap, World.tileCount, World.modifyTile, List.length_modify]
  exact sampleTiles_length

theorem soakedMap_boundsHold : soakedMap.boundsHold := by
  unfold World.boundsHold
  rw [soakedMap_tileCount]
  decide

theorem soakedMap_bad : ¬ soakedMap.PlainRules 0 := by
  intro h
  exact absurd h.rainfall (by decide +kernel)

set_option maxRecDepth 20000 in
theorem soakedMap_reported : (scanTiles soakedMap).firstFailed = 0 := by decide +kernel

/-- The one bad tile is reported. -/
theorem reports_first_bad_tile_sample :
    ¬ soakedMap.TileRules 0 ∧ soakedMap.ReportsFirstBadTile := by
  refine ⟨fun h => soakedMap_bad h.toPlainRules,
    (reports_first_bad_tile_iff soakedMap soakedMap_boundsHold).mpr ?_⟩
  have hscan : soakedMap.Reported soakedMap.tileCount (scanTiles soakedMap).firstFailed :=
    reported_scan soakedMap_boundsHold
  intro i hi hplain j hj
  have hle := hscan.le_reported hi hplain
  rw [soakedMap_reported] at hle
  omega

/-- The sample map with too much rain on its first two tiles. -/
def rainyMap : World :=
  (sampleMap.modifyTile 0 fun tile => { tile with rainfallMm := 6000 }).modifyTile 1
    fun tile => { tile with rainfallMm := 6000 }

theorem rainyMap_tileCount : rainyMap.tileCount = 512 := by
  simp only [rainyMap, World.tileCount, World.modifyTile, List.length_modify]
  exact sampleTiles_length

set_option maxRecDepth 20000 in
theorem rainyMap_reported : (scanTiles rainyMap).firstFailed = 1 := by decide +kernel

/-- The second of the two bad tiles is reported. -/
theorem rainy_map_reports_later_tile : rainyMap.boundsHold ∧ ¬ rainyMap.TileRules 0 ∧
    (fdWorldValidateInternal rainyMap).firstFailedTileIndex = 1 ∧
    ¬ rainyMap.ReportsFirstBadTile := by
  have hbounds : rainyMap.boundsHold := by
    unfold World.boundsHold
    rw [rainyMap_tileCount]
    decide
  have hbad : ¬ rainyMap.TileRules 0 := by
    intro h
    exact absurd h.rainfall (by decide +kernel)
  refine ⟨hbounds, hbad, rainyMap_reported, ?_⟩
  intro h
  have hfirst := h.first 0 (by rw [rainyMap_tileCount]; decide) hbad
    (fun j hj => absurd hj (Nat.not_lt_zero j))
  have hreport : (fdWorldValidateInternal rainyMap).firstFailedTileIndex = 1 := rainyMap_reported
  rw [hreport] at hfirst
  exact absurd hfirst (by decide)

end firstFailed

section paths

/-- The river check accepts exactly the single rising rivers, with their length and outlet, and
its walk ends whatever the map holds. -/
theorem river_check_iff (world : World) (hbounds : world.boundsHold) :
    ((fdValidateRiver world).isSome ↔ ∃ path, world.RisingRiver path) ∧
    (∀ path, world.RisingRiver path → ∃ outlet ∈ path.head?,
      fdValidateRiver world = some (path.length, outlet)) ∧
    (∀ count s, s.visited ≤ count → Runs (riverTurn world count) s
      (riverWalk world (count - s.visited) s.previous s.current)) ∧
    ∀ count s, ∃ result, Runs (riverTurn world count) s result := by
  have hreports : ∀ path, world.RisingRiver path → ∃ outlet ∈ path.head?,
      fdValidateRiver world = some (path.length, outlet) := by
    intro path hpath
    obtain ⟨first, middle, last, rfl⟩ := exists_ends (Nat.le_trans (by decide) hpath.length)
    exact ⟨first, rfl, check_of_risingRiver hbounds hpath rfl⟩
  refine ⟨⟨?_, ?_⟩, hreports, fun count s hvisited => riverTurn_runs count s hvisited, ?_⟩
  · intro h
    obtain ⟨⟨count, outlet⟩, hcheck⟩ := Option.isSome_iff_exists.mp h
    obtain ⟨path, hpath, -⟩ := risingRiver_of_check hbounds hcheck
    exact ⟨path, hpath⟩
  · rintro ⟨path, hpath⟩
    obtain ⟨outlet, -, hcheck⟩ := hreports path hpath
    rw [hcheck]
    rfl
  · intro count s
    apply runs_of_measure fun s => count + 1 - s.visited
    intro s next hturn
    rw [riverTurn_eq] at hturn
    split at hturn
    · cases hturn
    · split at hturn
      · cases hturn
      · split at hturn
        · cases hturn
        · next hcount =>
            cases hturn
            simp only
            omega
    · cases hturn

theorem river_check_sample : ((fdValidateRiver sampleMap).isSome ↔
    ∃ path, sampleMap.RisingRiver path) :=
  (river_check_iff sampleMap ((World.valid_iff sampleMap).mp sampleMap_valid).bounds).1

/-- Between settlements off the river the road check accepts exactly the single corridors, with
their length and the number of tiles that carry both road and river. -/
theorem road_check_iff (world : World) (hbounds : world.boundsHold)
    (hdry : world.settlementsOnMap → ¬ world.hasOverlay world.coastalIndex fdTileOverlayRiver ∧
      ¬ world.hasOverlay world.inlandIndex fdTileOverlayRiver) :
    ((fdValidateRoad world).isSome ↔ ∃ path, world.Corridor path) ∧
    ∀ path, world.Corridor path → fdValidateRoad world = some (path.length,
      ((world.overlayTiles fdTileOverlayRoadCandidate).filter
        (world.hasOverlay · fdTileOverlayRiver)).length) := by
  have hreports : ∀ path, world.Corridor path → fdValidateRoad world = some (path.length,
      ((world.overlayTiles fdTileOverlayRoadCandidate).filter
        (world.hasOverlay · fdTileOverlayRiver)).length) := by
    intro path hpath
    obtain ⟨hcoastal, hinland⟩ := hdry hpath.onMap
    rw [check_of_corridor hbounds hpath hcoastal hinland, (hpath.tiles.perm.filter _).length_eq]
  refine ⟨⟨?_, ?_⟩, hreports⟩
  · intro h
    obtain ⟨⟨count, crossings⟩, hcheck⟩ := Option.isSome_iff_exists.mp h
    obtain ⟨path, hpath, -⟩ := corridor_of_check hbounds hcheck
    exact ⟨path, hpath⟩
  · rintro ⟨path, hpath⟩
    rw [hreports path hpath]
    rfl

set_option maxRecDepth 20000 in
theorem road_check_sample : (fdValidateRoad sampleMap).isSome ↔
    ∃ path, sampleMap.Corridor path :=
  (road_check_iff sampleMap ((World.valid_iff sampleMap).mp sampleMap_valid).bounds
    (fun _ => by decide +kernel)).1

end paths

section landmass

/-- A validation that passes says all that the invariants say. -/
theorem invariants_of_validate {world : World} {out : StructHeader}
    (h : (fdWorldValidate world out).1 = .ok ()) : world.Invariants := by
  apply (World.valid_iff world).mp
  unfold fdWorldValidate at h
  split at h
  · cases h
  · unfold ValidationReport.result at h
    split at h
    · cases h
    · next hfailed => exact not_not.mp hfailed

/-- A map that passes validation has one landmass, of 55 to 80 percent of the tiles and of the
stored size; both settlements and the river lie on it. -/
theorem one_landmass (world : World) (out : StructHeader)
    (h : (fdWorldValidate world out).1 = .ok ()) :
    (∀ a b, world.Land a → world.Land b → world.LandPath a b) ∧
    55 * world.tileCount ≤ 100 * world.landTiles ∧ 100 * world.landTiles ≤ 80 * world.tileCount ∧
    world.landTileCount.toNat = world.landTiles ∧
    world.Land world.coastalIndex ∧ world.Land world.inlandIndex ∧
    ∀ index, world.Carries fdTileOverlayRiver index → world.Land index := by
  have hinvariants := invariants_of_validate h
  have hbounds := hinvariants.bounds
  have hcoast := hinvariants.landCoast
  rw [World.landCoastHolds, Bool.and_eq_true, scanTiles_land] at hcoast
  obtain ⟨⟨hlow, hhigh⟩, hpaths⟩ := landPath_of_coast hbounds hcoast.2
  refine ⟨hpaths, by omega, by omega, hinvariants.landCount.trans (scanTiles_land world), ?_⟩
  have hsettlements := hinvariants.settlements
  rw [World.settlementsHold, Bool.and_eq_true] at hsettlements
  have hground := settlements_ground hbounds hsettlements.2
  refine ⟨hground.1, hground.2, ?_⟩
  rintro index hindex
  have hydrology := hinvariants.hydrology
  rw [World.hydrologyHolds, Bool.and_eq_true] at hydrology
  obtain ⟨⟨count, outlet⟩, hcheck⟩ := Option.isSome_iff_exists.mp hydrology.1
  obtain ⟨path, hpath, -⟩ := risingRiver_of_check hbounds hcheck
  exact ⟨hindex.1, (hpath.ground index ((hpath.tiles.mem_iff index).mpr hindex)).1⟩

theorem one_landmass_sample :
    sampleMap.LandPath sampleMap.coastalIndex sampleMap.inlandIndex := by
  have hvalid : (fdWorldValidateInternal sampleMap).failedInvariants = 0 := sampleMap_valid
  obtain ⟨hpaths, -, -, -, hcoastal, hinland, -⟩ :=
    one_landmass sampleMap ⟨sizeofFdValidationReport, fdAbiVersion⟩ (by
      rw [fdWorldValidate, if_neg (by decide), ValidationReport.result,
        if_neg (not_not.mpr hvalid)])
  exact hpaths _ _ hcoastal hinland

end landmass

end FrontierDirectorate
