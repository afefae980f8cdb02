import Mathlib
import FrontierDirectorate.Core.LandShape
import FrontierDirectorate.Core.SettleShape

/-!
# The map before its road

All that the draws decide about a map: its coast and river, and the ground of every tile
that nobody builds on.
-/
namespace FrontierDirectorate
open Checks

/-- The tiles whose ground is not drawn: the settlements and the representatives. -/
def World.chosenTiles (world : World) (plan : CandidatePlan) : List Nat :=
  [world.harbourIndex plan, world.marketIndex plan,
    shoreCell plan.westWater world.width (plan.middle world.width) (plan.outletY + 1),
    shoreCell plan.westWater world.width (world.width - 4) (world.height - 3),
    shoreCell plan.westWater world.width (world.width - 5) (world.height - 3)]

/-- A map before its road, as an attempt draws it. -/
structure CandidateMap (draws : Draws) (attempt : UInt64) (fallback : Bool) (plan : CandidatePlan)
    (waterWidth : Nat → Nat) (world : World) : Prop extends world.Settled plan waterWidth where
  bounds : world.boundsHold
  fits : plan.Fits world.height
  shore : ShoreLine plan world waterWidth
  landTileCount : world.landTileCount = UInt32.ofNat (landArea world.width world.height waterWidth)
  raised : world.riverRaisedTileCount = 0
  represented : fallback = true → world.Represented plan
  ground : ∀ i < world.tileCount, world.terrain i ≠ fdTerrainWater →
    ¬ world.hasOverlay i fdTileOverlayRiver → i ∉ world.chosenTiles plan → ∃ eligible value,
      draws.bounded fdRngDomainBiomeAssignment (UInt64.ofNat i) attempt 0 fdRngSiteBiomeTile
        1000000 = .ok value ∧ world.terrain i = biomeTerrain world.config eligible value
  bed : ∀ j, j + 1 < plan.riverLength world.width →
    plan.riverTile world.width j ∉ world.chosenTiles plan →
      world.terrain (plan.riverTile world.width j) = fdTerrainGrassland

section answer

variable {draws : Draws} {attempt : UInt64} {fallback : Bool} {plan : CandidatePlan}
  {waterWidth : Nat → Nat} {v w : World}

/-- Maps of one size with one river and one coast have their water on the same tiles. -/
theorem World.Watered.same_water (hbounds : v.boundsHold) (hsame : v.SameSurvey w)
    (hv : v.Watered plan waterWidth) (hw : w.Watered plan waterWidth) {i : Nat}
    (hi : i < v.tileCount) : (w.terrain i = fdTerrainWater ↔ v.terrain i = fdTerrainWater) ∧
      (w.hasOverlay i fdTileOverlayRiver = true ↔ v.hasOverlay i fdTileOverlayRiver = true) := by
  obtain ⟨hwidth, hheight⟩ := hsame.sizes
  have hriver := hw.river i (hsame.tileCount ▸ hi)
  rw [hwidth] at hriver
  refine ⟨?_, hriver.trans (hv.river i hi).symm⟩
  rw [hbounds.tileCount_eq] at hi
  obtain ⟨d, y, hd, hy, rfl⟩ := exists_shoreCell plan.westWater hi
  have hsea := hw.sea d y (hwidth.symm ▸ hd) (hheight.symm ▸ hy)
  rw [hwidth] at hsea
  exact hsea.trans (hv.sea d y hd hy).symm

/-- Off the chosen tiles the ground is that of the biomes. -/
theorem patched_terrain {b g : World} (hfits : plan.Fits b.height) (hbounds : b.boundsHold)
    (hg : g = if fallback then patchRepresentatives plan b else b) {i : Nat}
    (hi : i ∉ b.chosenTiles plan) : g.terrain i = b.terrain i := by
  obtain ⟨hlow, -⟩ := hbounds.sizes
  simp only [World.chosenTiles, List.mem_cons, List.not_mem_nil, or_false, not_or] at hi
  obtain ⟨-, -, hwetlands, hforest, hgrassland⟩ := hi
  rw [hg]
  split
  · rw [patchRepresentatives_eq hfits.tie hlow, World.terrain_setTerrain_of_ne hgrassland,
      World.terrain_setTerrain_of_ne hforest, World.terrain_setTerrain_of_ne hwetlands]
  · rfl

/-- Whatever is drawn, an attempt comes to the map before its road. -/
theorem candidateMap_answer (hdraws : draws.Answer) (attempt : UInt64) (fallback : Bool)
    (hbounds : v.boundsHold) : ∃ plan waterWidth laid raised w,
      layCandidate draws attempt fallback v = .ok (plan, laid) ∧
      elevationOver draws attempt laid = .ok raised ∧
      populate draws plan attempt fallback raised = .ok w ∧ w.config = v.config ∧
      w.tileCount = v.tileCount ∧ CandidateMap draws attempt fallback plan waterWidth w := by
  obtain ⟨plan, waterWidth, laid, raised, hlay, hraise, hfits, hshore, hconfig, hcount, hmap, hland,
    hraised⟩ := landMap_answer hdraws attempt fallback hbounds
  have hwidth : raised.width = v.width := congrArg (fun config => config.width.toNat) hconfig
  have hheight : raised.height = v.height := congrArg (fun config => config.height.toNat) hconfig
  have hraisedBounds : raised.boundsHold := by
    unfold World.boundsHold World.width World.height at hbounds ⊢
    rw [hconfig, hcount]
    exact hbounds
  obtain ⟨u, g, w, hpopulate, hground, hsettled, hsame, hrepresented, hkept⟩ :=
    populate_answer hdraws attempt fallback hraisedBounds (hheight.symm ▸ hfits)
      (hshore.congr hwidth) hmap
  obtain ⟨hwidth', hheight'⟩ := hsame.sizes
  obtain ⟨b, hbiomes, hg⟩ := hground.biomes
  have hu := hground.surveyed
  have hub := hbiomes.toSameSurvey
  have hb := hu.trans hub
  -- off the chosen tiles the biomes are the ground
  have hterrain : ∀ i < w.tileCount, i ∉ w.chosenTiles plan →
      w.terrain i = biomeGround draws attempt u i := by
    intro i hi hchosen
    have hsizes : w.chosenTiles plan = b.chosenTiles plan := by
      unfold World.chosenTiles
      rw [(hsame.places plan).1, (hsame.places plan).2, (hb.places plan).1, (hb.places plan).2,
        hwidth', hheight', hb.sizes.1, hb.sizes.2]
    have hbuilt := hchosen
    rw [World.chosenTiles, List.mem_cons, List.mem_cons, not_or, not_or, (hsame.places plan).1,
      (hsame.places plan).2] at hbuilt
    rw [hkept i hbuilt.1 hbuilt.2.1, patched_terrain (hb.sizes.2.symm ▸ hheight.symm ▸ hfits)
      (hb.boundsHold hraisedBounds) hg (hsizes ▸ hchosen)]
    exact hbiomes.laid i (hu.tileCount.symm ▸ hsame.tileCount ▸ hi)
  have hwater : ∀ i < u.tileCount, (w.terrain i = fdTerrainWater ↔ u.terrain i = fdTerrainWater) ∧
      (w.hasOverlay i fdTileOverlayRiver = true ↔ u.hasOverlay i fdTileOverlayRiver = true) := by
    have huw : u.SameSurvey w := by
      refine ⟨hsame.config.trans hu.config.symm, hsame.tileCount.trans hu.tileCount.symm,
        hsame.landTileCount.trans hu.landTileCount.symm,
        hsame.riverRaisedTileCount.trans hu.riverRaisedTileCount.symm⟩
    exact fun i hi => World.Watered.same_water (hu.boundsHold hraisedBounds) huw
      hground.before.toWatered hsettled.toWatered hi
  have hsize : u.tileCount = w.tileCount := hu.tileCount.trans hsame.tileCount.symm
  refine ⟨plan, waterWidth, laid, raised, w, hlay, hraise, hpopulate, hsame.config.trans hconfig,
    hsame.tileCount.trans hcount, hsettled, hsame.boundsHold hraisedBounds,
    hheight'.symm ▸ hheight.symm ▸ hfits, hshore.congr (hwidth'.trans hwidth), ?_,
    hsame.riverRaisedTileCount.trans hraised, hrepresented, fun i hi hland hdry hchosen => ?_,
    fun j hj hchosen => ?_⟩
  · rw [hsame.landTileCount, hland, hwidth', hheight', hwidth, hheight]
  · obtain ⟨hsea, hriver⟩ := hwater i (hsize ▸ hi)
    obtain ⟨value, hdraw, -⟩ := hdraws fdRngDomainBiomeAssignment (UInt64.ofNat i) attempt 0
      fdRngSiteBiomeTile 1000000 (by decide)
    refine ⟨fdWetlandEligible u i, value, hdraw, ?_⟩
    rw [hterrain i hi hchosen, biomeGround,
      if_neg (not_or.mpr ⟨mt hsea.mpr hland, mt hriver.mpr hdry⟩), hdraw, hu.config, hsame.config]
  · obtain ⟨hlow, -, hlow', -, hsize'⟩ := (hu.boundsHold hraisedBounds).sizes
    have hwidthU : u.width = w.width := hu.sizes.1.trans hwidth'.symm
    rw [← hwidthU] at hj hchosen ⊢
    have hin : plan.riverTile u.width j < u.tileCount := hsize' ▸ riverTile_lt
      (hu.sizes.2.symm ▸ hheight.symm ▸ hfits) hlow hlow' (Nat.lt_of_succ_lt hj)
    have hriver := (hground.before.river _ hin).mpr ⟨j, Nat.lt_of_succ_lt hj, rfl⟩
    rw [hterrain _ (hsize ▸ hin) hchosen, biomeGround, if_pos (.inr hriver)]
    exact hground.bed j hj

end answer

end FrontierDirectorate
