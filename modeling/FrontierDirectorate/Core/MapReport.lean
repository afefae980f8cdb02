import Mathlib
import FrontierDirectorate.Core.MapChecks

/-!
# The report on a finished map

The coverage of the terrain is all that the report can miss, and the fallback does not
miss that either.
-/
namespace FrontierDirectorate
open Checks

section counts

variable {world : World}

/-- A tile is counted under its terrain. -/
theorem count_tileScanStep {i : Nat} (hknown : world.KnownTerrain i) (s : TileScan)
    (hlength : s.terrainCounts.length = 7) (terrain : UInt32) :
    (tileScanStep world s i).terrainCounts.length = 7 ∧
      (tileScanStep world s i).count terrain =
        if world.terrain i = terrain then s.count terrain + 1 else s.count terrain := by
  have hcounts : (tileScanStep world s i).terrainCounts =
      s.terrainCounts.modify (world.terrain i).toNat (· + 1) := if_pos hknown
  have hrange : (world.terrain i).toNat < 7 := by
    have hmost := UInt32.le_iff_toNat_le.mp hknown.2
    exact Nat.lt_succ_of_le hmost
  rw [TileScan.count, hcounts, List.length_modify]
  refine ⟨hlength, ?_⟩
  rw [TileScan.count, List.getD_eq_getElem?_getD, List.getD_eq_getElem?_getD]
  by_cases hsame : world.terrain i = terrain
  · rw [if_pos hsame, ← hsame, List.getElem?_modify_eq, List.getElem?_eq_getElem (hlength ▸ hrange)]
    rfl
  · rw [if_neg hsame, List.getElem?_modify_ne _ _ fun heq => hsame (UInt32.toNat_inj.mp heq)]

/-- The counters of the pass are the numbers of tiles of each kind. -/
theorem count_scanTiles (hknown : ∀ i < world.tileCount, world.KnownTerrain i)
    (terrain : UInt32) : (scanTiles world).count terrain =
      ((List.range world.tileCount).filter (world.terrain · == terrain)).length := by
  have hrun : ∀ (xs : List Nat) (s : TileScan), (∀ i ∈ xs, world.KnownTerrain i) →
      s.terrainCounts.length = 7 → (xs.foldl (tileScanStep world) s).count terrain =
        s.count terrain + (xs.filter (world.terrain · == terrain)).length := by
    intro xs
    induction xs with
    | nil => exact fun s _ _ => rfl
    | cons i xs ih =>
        intro s hxs hlength
        obtain ⟨hlength', hstep⟩ :=
          count_tileScanStep (hxs i List.mem_cons_self) s hlength terrain
        rw [List.foldl_cons, ih _ (fun j hj => hxs j (List.mem_cons_of_mem i hj)) hlength', hstep]
        by_cases hsame : world.terrain i = terrain
        · rw [if_pos hsame, List.filter_cons_of_pos (by simpa using hsame), List.length_cons]
          omega
        · rw [if_neg hsame, List.filter_cons_of_neg (by simpa using hsame)]
  have hzero : TileScan.count ⟨uint32Max, List.replicate 7 0, 0, 0⟩ terrain = 0 := by
    rw [TileScan.count, List.getD_eq_getElem?_getD, List.getElem?_replicate]
    split <;> rfl
  rw [scanTiles, hrun _ _ (fun i hi => hknown i (List.mem_range.mp hi)) List.length_replicate,
    hzero, Nat.zero_add]

theorem count_pos (hknown : ∀ i < world.tileCount, world.KnownTerrain i) {i : Nat}
    (hi : i < world.tileCount) : 0 < (scanTiles world).count (world.terrain i) := by
  rw [count_scanTiles hknown]
  exact List.length_pos_of_mem (List.mem_filter.mpr ⟨List.mem_range.mpr hi, beq_self_eq_true _⟩)

end counts

section report

variable {plan : CandidatePlan} {waterWidth : Nat → Nat} {world : World} {road : List Nat}

/-- The mask arithmetic of a report that has all but the coverage. -/
theorem failed_of_coverage (coverage : Bool) :
    fdInvariantAll &&& ~~~ (setIf true (setIf true (setIf true (setIf true (setIf true (setIf true
      (setIf coverage (setIf true (setIf true 0 fdInvariantBounds) fdInvariantLandCoast)
        fdInvariantTerrainCoverage) fdInvariantHydrology) fdInvariantSettlements)
        fdInvariantRoadCorridor) fdInvariantObjectiveReachable) fdInvariantOwnership)
        fdInvariantGraphTileAgreement) = if coverage then 0 else fdInvariantTerrainCoverage := by
  cases coverage <;> decide

/-- The report of a finished map: nothing but the coverage can be missing. -/
theorem report_of_finished (hbounds : world.boundsHold) (hfits : plan.Fits world.height)
    (hshore : ShoreLine plan world waterWidth) (h : world.Finished plan waterWidth road) :
    (fdWorldValidateInternal world).failedInvariants =
      if (scanTiles world).coverageHolds then 0 else fdInvariantTerrainCoverage := by
  have hriver := riverFound_eq hbounds hfits hshore h
  have hroad := roadFound_eq hbounds hfits hshore h
  have houtlet : plan.riverTile world.width 0 ≠ uint32Max := by
    obtain ⟨hlow, -, hlow', -, hsize⟩ := hbounds.sizes
    exact ((hbounds.lt_max (hsize ▸ riverTile_lt hfits hlow hlow' (Nat.succ_pos _))).trans
      (by decide)).ne
  have hfound : world.riverFound =
      (plan.riverLength world.width, plan.riverTile world.width 0) := by
    rw [World.riverFound, hriver]
    rfl
  have hfound' : world.roadFound = (road.length, (world.rivers road).length) := by
    rw [World.roadFound, hroad]
    rfl
  have hcoast : world.landCoastHolds = true := landCoast_ok hbounds hshore h.toWatered
  have hydrology : world.hydrologyHolds = true := by
    rw [World.hydrologyHolds, hfound, hriver, riverTileCount_toNat hbounds hfits h]
    exact beq_self_eq_true _
  have hsettlements : world.settlementsHold = true := by
    rw [World.settlementsHold, hfound, bne_iff_ne.mpr houtlet,
      settlements_ok hbounds hfits hshore h]
    rfl
  have hcorridor : world.corridorHolds = true := by
    rw [World.corridorHolds, hfound', hroad, h.roadTileCount]
    exact beq_self_eq_true _
  have hownership : world.ownershipHolds = true := by
    rw [World.ownershipHolds, hfound, hfound', bne_iff_ne.mpr houtlet,
      ownership_ok hbounds hfits h]
    rfl
  have hland : world.landTileCount.toNat = (scanTiles world).land := by
    have harea : landArea world.width world.height waterWidth ≤ world.tileCount := by
      rw [← landTiles_eq hbounds hshore h.toWatered]
      exact (List.length_filter_le _ _).trans_eq List.length_range
    have hmax : world.tileCount ≤ 32768 := hbounds.2.2.2.2.2
    rw [scanTiles_land, landTiles_eq hbounds hshore h.toWatered, h.landTileCount]
    exact UInt32.toNat_ofNat_of_lt' (by rw [UInt32.size]; omega)
  have hmask := failed_of_coverage (scanTiles world).coverageHolds
  simp only [decide_eq_true_eq] at hmask
  simp only [fdWorldValidateInternal, World.passedInvariants, hcoast, hydrology, hsettlements,
    hcorridor, hownership, decide_eq_true hbounds, if_neg (not_not.mpr hland)]
  exact hmask

/-- The representatives of the fallback are enough. -/
theorem coverage_of_represented (hbounds : world.boundsHold) (hfits : plan.Fits world.height)
    (hshore : ShoreLine plan world waterWidth) (h : world.Finished plan waterWidth road)
    (hrepresented : world.Represented plan) : (scanTiles world).coverageHolds := by
  obtain ⟨hlow, -, hlow', -, hsize⟩ := hbounds.sizes
  obtain ⟨-, hleast, -, hmost⟩ := middle_bounds hfits.tie hlow
  have houtlet := hfits.outlet
  have hshallow := hshore.least 0
  have hknown : ∀ i < world.tileCount, world.KnownTerrain i := fun i hi => (h.rules i hi).known
  have hcounted : ∀ d y terrain, d < world.width → y < world.height →
      world.terrain (shoreCell plan.westWater world.width d y) = terrain →
      0 < (scanTiles world).count terrain := by
    rintro d y _ hd hy rfl
    exact count_pos hknown (hsize ▸ shoreCell_lt hd hy)
  have hsource : 0 < (scanTiles world).count fdTerrainHills := by
    rw [← h.source]
    exact count_pos hknown (hsize ▸ riverTile_lt hfits hlow hlow'
      (Nat.sub_lt (Nat.succ_pos _) Nat.one_pos))
  refine ⟨hcounted 0 0 _ (by omega) (by omega) ((h.sea 0 0 (by omega) (by omega)).mpr (by omega)),
    hcounted _ _ _ (by omega) (by omega) hrepresented.grassland,
    hcounted _ _ _ (by omega) (by omega) hrepresented.forest, hsource,
    hcounted _ _ _ (by omega) (by omega) hrepresented.wetlands, ?_⟩
  rw [count_scanTiles hknown]
  exact h.count_settlements hbounds hfits hshore

end report

end FrontierDirectorate
