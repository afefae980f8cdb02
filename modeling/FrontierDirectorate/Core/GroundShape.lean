import Mathlib
import FrontierDirectorate.Core.RiverShape
import FrontierDirectorate.Core.RoadTraceLaws
import FrontierDirectorate.Core.TilePass

/-!
# The ground along the river

What the later stages keep: the sea and the river stay where they are, every tile obeys
the rules of its ground, and the source stays in the hills.
-/
namespace FrontierDirectorate
open Checks

/-- The map with its river. -/
structure World.Watered (world : World) (plan : CandidatePlan) (waterWidth : Nat → Nat) : Prop where
  sea : ∀ d y, d < world.width → y < world.height →
    (world.terrain (shoreCell plan.westWater world.width d y) = fdTerrainWater ↔ d < waterWidth y)
  rules : ∀ i < world.tileCount, world.TileRules i
  river : ∀ i < world.tileCount, world.hasOverlay i fdTileOverlayRiver = true ↔
    ∃ j < plan.riverLength world.width, i = plan.riverTile world.width j
  outlet : ∀ i < world.tileCount, world.hasOverlay i fdTileRiverOutlet = true ↔
    i = plan.riverTile world.width 0
  heights : ∀ j < plan.riverLength world.width,
    (world.tile (plan.riverTile world.width j)).elevationCm = Int32.ofNat (100 + j)
  source : world.terrain (plan.sourceTile world.width) = fdTerrainHills

/-- Maps that differ in their roads, settlements and kinds of land at most. -/
structure World.SameWater (v w : World) : Prop extends v.SameSurvey w where
  overlays : ∀ i, (w.tile i).overlays &&& ~~~ roadBits = (v.tile i).overlays &&& ~~~ roadBits
  elevation : ∀ i, (w.tile i).elevationCm = (v.tile i).elevationCm
  rainfall : ∀ i, (w.tile i).rainfallMm = (v.tile i).rainfallMm
  water : ∀ i, w.terrain i = fdTerrainWater ↔ v.terrain i = fdTerrainWater

section transfer

variable {plan : CandidatePlan} {waterWidth : Nat → Nat} {u v w : World} {i : Nat}

namespace World.SameWater

theorem refl (v : World) : v.SameWater v :=
  ⟨.refl v, fun _ => rfl, fun _ => rfl, fun _ => rfl, fun _ => Iff.rfl⟩

theorem trans (h : u.SameWater v) (k : v.SameWater w) : u.SameWater w where
  toSameSurvey := h.toSameSurvey.trans k.toSameSurvey
  overlays := fun i => (k.overlays i).trans (h.overlays i)
  elevation := fun i => (k.elevation i).trans (h.elevation i)
  rainfall := fun i => (k.rainfall i).trans (h.rainfall i)
  water := fun i => (k.water i).trans (h.water i)

theorem hasOverlay (h : v.SameWater w) {bit : UInt32} (hbit : ~~~ roadBits &&& bit = bit)
    (i : Nat) :
    w.hasOverlay i bit = v.hasOverlay i bit := by
  rw [World.hasOverlay, World.hasOverlay, ← hbit, ← UInt32.and_assoc, ← UInt32.and_assoc,
    h.overlays]

theorem wet (h : v.SameWater w) (i : Nat) : w.Wet i ↔ v.Wet i := by
  have hriver : ∀ j, w.hasOverlay j fdTileOverlayRiver = v.hasOverlay j fdTileOverlayRiver :=
    h.hasOverlay (by decide)
  have hnear : w.neighbors i = v.neighbors i := by
    rw [World.neighbors, World.width, World.height, h.config]
    rfl
  simp only [World.Wet, hriver, hnear, h.water]

/-- The rules of a tile but for those of its ground. -/
theorem tileRules (h : v.SameWater w) (hrules : v.TileRules i) (hknown : w.KnownTerrain i)
    (hwet : w.terrain i = fdTerrainWetlands → v.Wet i) : w.TileRules i where
  overlays := by
    have hmask : ~~~ fdTileOverlayAll = ~~~ roadBits &&& ~~~ fdTileOverlayAll := by decide
    rw [hmask, ← UInt32.and_assoc, h.overlays, UInt32.and_assoc, ← hmask]
    exact hrules.overlays
  water := fun hwater => (h.elevation i).trans (hrules.water ((h.water i).mp hwater))
  land := by
    intro hland
    rw [h.elevation]
    exact hrules.land fun hwater => hland ((h.water i).mpr hwater)
  rainfall := by
    rw [h.rainfall]
    exact hrules.rainfall
  wetlands := fun hwetlands => (h.wet i).mpr (hwet hwetlands)
  known := hknown

end World.SameWater

theorem World.Watered.transfer (h : v.Watered plan waterWidth) (hsame : v.SameWater w)
    (hground : ∀ i < v.tileCount,
      w.KnownTerrain i ∧ (w.terrain i = fdTerrainWetlands → v.Wet i))
    (hsource : w.terrain (plan.sourceTile v.width) = fdTerrainHills) :
    w.Watered plan waterWidth := by
  have hwidth : w.width = v.width := congrArg (fun config => config.width.toNat) hsame.config
  have hheight : w.height = v.height := congrArg (fun config => config.height.toNat) hsame.config
  constructor
  · intro d y hd hy
    rw [hsame.water, hwidth]
    exact h.sea d y (hwidth ▸ hd) (hheight ▸ hy)
  · intro i hi
    rw [hsame.tileCount] at hi
    exact hsame.tileRules (h.rules i hi) (hground i hi).1 (hground i hi).2
  · intro i hi
    rw [hsame.hasOverlay (by decide), hwidth]
    exact h.river i (hsame.tileCount ▸ hi)
  · intro i hi
    rw [hsame.hasOverlay (by decide), hwidth]
    exact h.outlet i (hsame.tileCount ▸ hi)
  · intro j hj
    rw [hwidth] at hj ⊢
    rw [hsame.elevation]
    exact h.heights j hj
  · rw [hwidth]
    exact hsource

end transfer

section wild

/-- The map with its river, before anybody settles. -/
structure World.Wild (world : World) (plan : CandidatePlan) (waterWidth : Nat → Nat) : Prop
    extends world.Watered plan waterWidth where
  free : world.RoadFree
  unsettled : ∀ i < world.tileCount,
    world.terrain i ≠ fdTerrainSettlement ∧ (world.tile i).settlementId = 0

variable {plan : CandidatePlan} {waterWidth : Nat → Nat} {v w : World} {i : Nat}

/-- Another kind of land on a tile. -/
theorem sameWater_modifyTile (i : Nat) (f : Tile → Tile) (hkeep : f (w.tile i) =
      { w.tile i with terrain := (f (w.tile i)).terrain, settlementId := (f (w.tile i)).settlementId })
    (hland : w.terrain i ≠ fdTerrainWater) (hland' : (f (w.tile i)).terrain ≠ fdTerrainWater) :
    w.SameWater (w.modifyTile i f) := by
  have htile : ∀ j, (w.modifyTile i f).tile j =
      { w.tile j with
        terrain := ((w.modifyTile i f).tile j).terrain
        settlementId := ((w.modifyTile i f).tile j).settlementId } := by
    intro j
    rw [World.tile_modifyTile]
    split
    · next h =>
        obtain ⟨rfl, -⟩ := h
        exact hkeep
    · rfl
  refine ⟨.modifyTile w i f, fun j => ?_, fun j => ?_, fun j => ?_, fun j => ?_⟩
  · rw [htile j]
  · rw [htile j]
  · rw [htile j]
  · rw [World.terrain, World.tile_modifyTile]
    split
    · next h =>
        obtain ⟨rfl, -⟩ := h
        exact iff_of_false hland' hland
    · rfl

theorem World.RoadFree.modifyTile (h : w.RoadFree) (i : Nat) {f : Tile → Tile}
    (hkeep : ∀ tile, (f tile).overlays = tile.overlays) : (w.modifyTile i f).RoadFree := by
  intro j hj
  rw [World.tileCount_modifyTile] at hj
  have hsame : ((w.modifyTile i f).tile j).overlays = (w.tile j).overlays := by
    rw [World.tile_modifyTile]
    split
    · exact hkeep _
    · rfl
  rw [hsame]
  exact h j hj

/-- Kinds of land nobody has settled on. -/
def WildTerrain (terrain : UInt32) : Prop :=
  terrain = fdTerrainGrassland ∨ terrain = fdTerrainForest ∨ terrain = fdTerrainHills ∨
    terrain = fdTerrainWetlands

theorem WildTerrain.ne {terrain : UInt32} (h : WildTerrain terrain) :
    terrain ≠ fdTerrainWater ∧ terrain ≠ fdTerrainSettlement ∧
      fdTerrainWater ≤ terrain ∧ terrain ≤ fdTerrainSettlement := by
  rcases h with rfl | rfl | rfl | rfl <;> decide

theorem World.terrain_setTerrain (w : World) (i j : Nat) (terrain : UInt32) :
    (w.setTerrain i terrain).terrain j =
      if i = j ∧ j < w.tileCount then terrain else w.terrain j := by
  rw [World.terrain, World.setTerrain, World.tile_modifyTile]
  split <;> rfl

theorem World.terrain_setTerrain_self {terrain : UInt32} (h : i < w.tileCount) :
    (w.setTerrain i terrain).terrain i = terrain :=
  (World.terrain_setTerrain w i i terrain).trans (if_pos ⟨rfl, h⟩)

theorem World.terrain_setTerrain_of_ne {j : Nat} {terrain : UInt32} (h : j ≠ i) :
    (w.setTerrain i terrain).terrain j = w.terrain j :=
  (World.terrain_setTerrain w i j terrain).trans (if_neg fun heq => h heq.1.symm)

/-- The map stays as it was when a land tile becomes another kind of land. -/
theorem World.Wild.setTerrain (h : w.Wild plan waterWidth) (terrain : UInt32)
    (hterrain : WildTerrain terrain) (hland : w.terrain i ≠ fdTerrainWater)
    (hsource : i ≠ plan.sourceTile w.width) (hwet : terrain = fdTerrainWetlands → w.Wet i) :
    (w.setTerrain i terrain).Wild plan waterWidth ∧ w.SameWater (w.setTerrain i terrain) := by
  obtain ⟨hnotWater, hnotSettled, hleast, hmost⟩ := hterrain.ne
  have hsame : w.SameWater (w.setTerrain i terrain) :=
    sameWater_modifyTile i _ rfl hland hnotWater
  refine ⟨⟨h.toWatered.transfer hsame (fun j hj => ?_) ?_,
    h.free.modifyTile i fun _ => rfl, fun j hj => ?_⟩, hsame⟩
  · have hterrain := World.terrain_setTerrain w i j terrain
    split at hterrain
    · next heq =>
        obtain ⟨rfl, -⟩ := heq
        exact ⟨⟨hleast.trans_eq hterrain.symm, hterrain.trans_le hmost⟩,
          fun hwetlands => hwet (hterrain.symm.trans hwetlands)⟩
    · obtain ⟨hleast, hmost⟩ := (h.rules j hj).known
      exact ⟨⟨hleast.trans_eq hterrain.symm, hterrain.trans_le hmost⟩,
        fun hwetlands => (h.rules j hj).wetlands (hterrain.symm.trans hwetlands)⟩
  · rw [World.terrain_setTerrain, if_neg fun heq => hsource heq.1]
    exact h.source
  · rw [hsame.tileCount] at hj
    have hid : ((w.setTerrain i terrain).tile j).settlementId = (w.tile j).settlementId := by
      rw [World.setTerrain, World.tile_modifyTile]
      split <;> rfl
    refine ⟨?_, hid.trans (h.unsettled j hj).2⟩
    rw [World.terrain_setTerrain]
    split
    · exact hnotSettled
    · exact (h.unsettled j hj).1

end wild

section river

variable {plan : CandidatePlan} {waterWidth : Nat → Nat} {v w : World}

/-- A tile of the land before anybody comes: sea, or land without wetlands. -/
structure BareTile (tile : Tile) : Prop where
  terrain : tile.terrain = fdTerrainWater ∨ tile.terrain = fdTerrainGrassland ∨
    tile.terrain = fdTerrainHills
  water : tile.terrain = fdTerrainWater → tile.elevationCm = 0
  land : tile.terrain ≠ fdTerrainWater → 0 < tile.elevationCm
  rainfall : tile.rainfallMm ≤ 5000
  settlementId : tile.settlementId = 0

theorem World.tileRules_of_bare {i : Nat} (h : BareTile (w.tile i))
    (hoverlays : (w.tile i).overlays &&& ~~~ fdTileOverlayAll = 0) : w.TileRules i where
  overlays := hoverlays
  water := h.water
  land := h.land
  rainfall := h.rainfall
  wetlands := by
    intro hwetlands
    rcases h.terrain with heq | heq | heq
    · exact absurd (heq.symm.trans hwetlands) (by decide)
    · exact absurd (heq.symm.trans hwetlands) (by decide)
    · exact absurd (heq.symm.trans hwetlands) (by decide)
  known := by
    unfold World.KnownTerrain
    rcases h.terrain with heq | heq | heq <;> rw [heq] <;> decide

theorem ofNat_pos {e : Nat} (hpos : 0 < e) (hlt : e < 2 ^ 31) : 0 < Int32.ofNat e := by
  rw [Int32.lt_iff_toInt_lt, Int32.toInt_ofNat_of_lt hlt]
  exact Int.natCast_pos.mpr hpos

theorem rain_le {rainfall : UInt32} (h : rainfall.toNat ≤ 2400) : rainfall ≤ 5000 :=
  UInt32.le_iff_toNat_le.mpr (h.trans (by decide))

/-- Before the river every tile is bare and carries nothing. -/
theorem LandMap.bare (hmap : LandMap plan.westWater waterWidth v) {d y : Nat} (hd : d < v.width)
    (hy : y < v.height) :
    BareTile (v.tile (shoreCell plan.westWater v.width d y)) ∧
      (v.tile (shoreCell plan.westWater v.width d y)).overlays = 0 ∧
      (v.terrain (shoreCell plan.westWater v.width d y) = fdTerrainWater ↔ d < waterWidth y) := by
  by_cases hdepth : d < waterWidth y
  · have htile := hmap.sea d y hd hy hdepth
    rw [World.terrain, htile]
    exact ⟨⟨.inl rfl, fun _ => rfl, fun hland => absurd rfl hland, (by decide), rfl⟩, rfl,
      iff_of_true rfl hdepth⟩
  · obtain ⟨elevation, rainfall, htile, hhigh, hrain⟩ := hmap.land d y hd hy (Nat.not_lt.mp hdepth)
    have hgrass : fdTerrainGrassland ≠ fdTerrainWater := by decide
    rw [World.terrain, htile]
    refine ⟨⟨.inr (.inl rfl), fun hwater => absurd hwater hgrass, fun _ => ?_, rain_le hrain, rfl⟩,
      rfl, iff_of_false hgrass hdepth⟩
    have hpos : (0 : Int32).toInt < elevation.toInt := by
      rw [Int32.toInt_zero]
      omega
    exact Int32.lt_iff_toInt_lt.mpr hpos

/-- The bits of a river tile, and that they are no others. -/
theorem riverBits_masks (j : Nat) : riverBits j &&& ~~~ fdTileOverlayAll = 0 ∧
    riverBits j &&& roadBits = 0 ∧ (riverBits j &&& fdTileOverlayRiver != 0) = true ∧
    ((riverBits j &&& fdTileRiverOutlet != 0) = true ↔ j = 0) := by
  unfold riverBits
  by_cases hj : j = 0
  · rw [if_pos hj]
    exact ⟨by decide, by decide, by decide, iff_of_true (by decide) hj⟩
  · rw [if_neg hj]
    exact ⟨by decide, by decide, by decide, iff_of_false (by decide) hj⟩

/-- A tile of the map with its river, by its number in the river if it has one. -/
theorem riverMap_tile {u : World} (hbounds : v.boundsHold) (hfits : plan.Fits v.height)
    (hmap : LandMap plan.westWater waterWidth v)
    (hlaid : RiverLaid (plan.riverTile v.width) (plan.riverLength v.width) v w)
    (hu : u = w.setTerrain (plan.sourceTile v.width) fdTerrainHills) (i : Nat) :
    (∃ j < plan.riverLength v.width, i = plan.riverTile v.width j ∧ BareTile (u.tile i) ∧
      u.terrain i ≠ fdTerrainWater ∧ (u.tile i).overlays = riverBits j ∧
      (u.tile i).elevationCm = Int32.ofNat (100 + j)) ∨
    (∀ j < plan.riverLength v.width, i ≠ plan.riverTile v.width j) ∧ u.tile i = v.tile i := by
  obtain ⟨hlow, hhigh, hlow', -, hsize⟩ := hbounds.sizes
  subst hu
  by_cases hriver : ∃ j < plan.riverLength v.width, i = plan.riverTile v.width j
  · refine .inl ?_
    obtain ⟨j, hj, rfl⟩ := hriver
    obtain ⟨hd, hy⟩ := riverCell_lt hfits hlow hlow' hj
    obtain ⟨hbare, hclear, -⟩ := hmap.bare hd hy
    rw [← CandidatePlan.riverTile] at hbare hclear
    have htile := hlaid.river j hj
    rw [hclear, UInt32.zero_or] at htile
    have hnumber : 100 + j < 2 ^ 31 := by
      unfold CandidatePlan.riverLength at hj
      have hsource := hfits.source
      omega
    have hhills : fdTerrainHills ≠ fdTerrainWater := by decide
    have hgrass : fdTerrainGrassland ≠ fdTerrainWater := by decide
    refine ⟨j, hj, rfl, ?_⟩
    rw [World.terrain, World.setTerrain, World.tile_modifyTile]
    split
    · rw [htile]
      exact ⟨⟨.inr (.inr rfl), fun hwater => absurd hwater hhills,
        fun _ => ofNat_pos (by omega) hnumber, hbare.rainfall, hbare.settlementId⟩, hhills, rfl, rfl⟩
    · rw [htile]
      exact ⟨⟨.inr (.inl rfl), fun hwater => absurd hwater hgrass,
        fun _ => ofNat_pos (by omega) hnumber, hbare.rainfall, hbare.settlementId⟩, hgrass, rfl, rfl⟩
  · have hnot : ∀ j < plan.riverLength v.width, i ≠ plan.riverTile v.width j :=
      fun j hj heq => hriver ⟨j, hj, heq⟩
    have hsource : i ≠ plan.sourceTile v.width :=
      hnot _ (Nat.sub_lt (Nat.succ_pos _) Nat.one_pos)
    refine .inr ⟨hnot, ?_⟩
    rw [World.setTerrain, World.tile_modifyTile_of_ne hsource]
    exact hlaid.rest i hnot

/-- The bits of the map with its river. -/
theorem riverMap_bits {u : World} (hbounds : v.boundsHold) (hfits : plan.Fits v.height)
    (hmap : LandMap plan.westWater waterWidth v)
    (hlaid : RiverLaid (plan.riverTile v.width) (plan.riverLength v.width) v w)
    (hu : u = w.setTerrain (plan.sourceTile v.width) fdTerrainHills) {i : Nat}
    (hi : i < v.tileCount) : BareTile (u.tile i) ∧
      ((∃ j < plan.riverLength v.width, i = plan.riverTile v.width j ∧
        (u.tile i).overlays = riverBits j) ∨
      (∀ j < plan.riverLength v.width, i ≠ plan.riverTile v.width j) ∧
        (u.tile i).overlays = 0) := by
  rw [hbounds.tileCount_eq] at hi
  obtain ⟨d, y, hd, hy, rfl⟩ := exists_shoreCell plan.westWater hi
  obtain ⟨hbare, hclear, -⟩ := hmap.bare hd hy
  rcases riverMap_tile hbounds hfits hmap hlaid hu (shoreCell plan.westWater v.width d y) with
    ⟨j, hj, heq, hbare', -, hover, -⟩ | ⟨hnot, hsame⟩
  · exact ⟨hbare', .inl ⟨j, hj, heq, hover⟩⟩
  · rw [hsame]
    exact ⟨hbare, .inr ⟨hnot, hclear⟩⟩

/-- The map with its river is wild. -/
theorem wild_of_river {u : World} (hbounds : v.boundsHold) (hfits : plan.Fits v.height)
    (hshore : ShoreLine plan v waterWidth) (hmap : LandMap plan.westWater waterWidth v)
    (hlaid : RiverLaid (plan.riverTile v.width) (plan.riverLength v.width) v w)
    (hu : u = w.setTerrain (plan.sourceTile v.width) fdTerrainHills) :
    u.Wild plan waterWidth ∧ v.SameSurvey u := by
  obtain ⟨hlow, hhigh, hlow', -, hsize⟩ := hbounds.sizes
  have hsurvey : v.SameSurvey u := by
    rw [hu]
    exact hlaid.toSameSurvey.trans (.modifyTile w _ _)
  have hwidth : u.width = v.width := congrArg (fun config => config.width.toNat) hsurvey.config
  have hheight : u.height = v.height := congrArg (fun config => config.height.toNat) hsurvey.config
  have htile := riverMap_tile hbounds hfits hmap hlaid hu
  have hbits := fun i (hi : i < v.tileCount) => riverMap_bits hbounds hfits hmap hlaid hu hi
  refine ⟨⟨⟨?_, ?_, ?_, ?_, ?_, ?_⟩, ?_, ?_⟩, hsurvey⟩
  · intro d y hd hy
    rw [hwidth] at hd ⊢
    rw [hheight] at hy
    obtain ⟨-, -, hsea⟩ := hmap.bare hd hy
    rcases htile (shoreCell plan.westWater v.width d y) with
      ⟨j, hj, heq, -, hland, -⟩ | ⟨-, hsame⟩
    · obtain ⟨hd', hy'⟩ := shoreCell_inj hd (riverCell_lt hfits hlow hlow' hj).1 heq
      have hdepth := (riverTile_land hbounds hfits hshore hmap hj).1
      rw [← hd', ← hy'] at hdepth
      exact iff_of_false hland (Nat.not_lt.mpr hdepth)
    · rw [World.terrain, hsame]
      exact hsea
  · intro i hi
    rw [hsurvey.tileCount] at hi
    obtain ⟨hbare, ⟨j, -, -, hover⟩ | ⟨-, hover⟩⟩ := hbits i hi
    · exact World.tileRules_of_bare hbare (hover ▸ (riverBits_masks j).1)
    · exact World.tileRules_of_bare hbare (by rw [hover, UInt32.zero_and])
  · intro i hi
    rw [hsurvey.tileCount] at hi
    rw [hwidth, World.hasOverlay]
    obtain ⟨-, ⟨j, hj, heq, hover⟩ | ⟨hnot, hover⟩⟩ := hbits i hi
    · rw [hover]
      exact iff_of_true (riverBits_masks j).2.2.1 ⟨j, hj, heq⟩
    · rw [hover]
      refine iff_of_false (by decide) ?_
      rintro ⟨j, hj, heq⟩
      exact hnot j hj heq
  · intro i hi
    rw [hsurvey.tileCount] at hi
    rw [hwidth, World.hasOverlay]
    have hpos : 0 < plan.riverLength v.width := Nat.succ_pos _
    obtain ⟨-, ⟨j, hj, heq, hover⟩ | ⟨hnot, hover⟩⟩ := hbits i hi
    · rw [hover, (riverBits_masks j).2.2.2, heq]
      exact ⟨fun h => h ▸ rfl, fun h => riverTile_inj hfits hlow hlow' hj hpos h⟩
    · rw [hover]
      exact iff_of_false (by decide) fun heq => hnot 0 hpos heq
  · intro j hj
    rw [hwidth] at hj ⊢
    rcases htile (plan.riverTile v.width j) with ⟨k, hk, heq, -, -, -, hheight⟩ | ⟨hnot, -⟩
    · rw [hheight, riverTile_inj hfits hlow hlow' hj hk heq]
    · exact absurd rfl (hnot j hj)
  · have hin : plan.sourceTile v.width < w.tileCount := by
      rw [hlaid.tileCount, hsize]
      exact riverTile_lt hfits hlow hlow' (Nat.sub_lt (Nat.succ_pos _) Nat.one_pos)
    rw [hwidth, hu, World.terrain_setTerrain, if_pos ⟨rfl, hin⟩]
  · intro i hi
    rw [hsurvey.tileCount] at hi
    obtain ⟨-, ⟨j, -, -, hover⟩ | ⟨-, hover⟩⟩ := hbits i hi
    · exact hover ▸ (riverBits_masks j).2.1
    · rw [hover, UInt32.zero_and]
  · intro i hi
    rw [hsurvey.tileCount] at hi
    obtain ⟨hbare, -⟩ := hbits i hi
    refine ⟨fun hsettled => ?_, hbare.settlementId⟩
    rcases hbare.terrain with heq | heq | heq
    · exact absurd (heq.symm.trans hsettled) (by decide)
    · exact absurd (heq.symm.trans hsettled) (by decide)
    · exact absurd (heq.symm.trans hsettled) (by decide)

end river

end FrontierDirectorate
