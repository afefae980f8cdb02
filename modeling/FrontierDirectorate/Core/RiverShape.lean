import Mathlib
import FrontierDirectorate.Core.LandShape

/-!
# The river of a plan

The land is high enough along the whole course, so that the river is carved and never
raised. It changes its own tiles and no others.
-/
namespace FrontierDirectorate
open Checks

section course

variable {plan : CandidatePlan} {width height : Nat}

/-- The tiles of the river, from the outlet on. -/
def CandidatePlan.riverTile (plan : CandidatePlan) (width i : Nat) : Nat :=
  shoreCell plan.westWater width (plan.riverCell width i).1 (plan.riverCell width i).2

/-- The tile it comes from. -/
def CandidatePlan.sourceTile (plan : CandidatePlan) (width : Nat) : Nat :=
  plan.riverTile width (plan.riverLength width - 1)

theorem riverCell_zero : plan.riverCell width 0 = (width * 30 / 100, plan.outletY) := by
  unfold CandidatePlan.riverCell
  dsimp only
  rw [if_pos (Nat.zero_le _), Nat.add_zero]

variable (hfits : plan.Fits height) (hwidth : 32 ≤ width)
include hfits hwidth

theorem riverCell_lt (hheight : 16 ≤ height) {i : Nat} (hi : i < plan.riverLength width) :
    (plan.riverCell width i).1 < width ∧ (plan.riverCell width i).2 < height := by
  obtain ⟨-, hmost, -, hlast, -⟩ := riverCell_bounds hfits hwidth hi
  have houtlet := hfits.outlet
  have hsource := hfits.source
  omega

theorem riverTile_lt (hheight : 16 ≤ height) {i : Nat} (hi : i < plan.riverLength width) :
    plan.riverTile width i < width * height := by
  obtain ⟨hd, hy⟩ := riverCell_lt hfits hwidth hheight hi
  exact shoreCell_lt hd hy

theorem riverTile_inj (hheight : 16 ≤ height) {i j : Nat} (hi : i < plan.riverLength width)
    (hj : j < plan.riverLength width) (heq : plan.riverTile width i = plan.riverTile width j) :
    i = j := by
  obtain ⟨hd, hy⟩ := shoreCell_inj (riverCell_lt hfits hwidth hheight hi).1
    (riverCell_lt hfits hwidth hheight hj).1 heq
  exact riverCell_inj hfits hwidth (Prod.ext hd hy)

theorem riverTile_adjacent (hheight : 16 ≤ height) {i j : Nat} (hi : i < plan.riverLength width)
    (hj : j < plan.riverLength width) :
    Adjacent width (plan.riverTile width i) (plan.riverTile width j) ↔ i + 1 = j ∨ j + 1 = i := by
  rw [Adjacent, CandidatePlan.riverTile, CandidatePlan.riverTile,
    fdManhattan_shoreCell (riverCell_lt hfits hwidth hheight hi).1
      (riverCell_lt hfits hwidth hheight hj).1]
  exact riverCell_adjacent hfits hwidth i j

/-- The source is at the far side of the map. -/
theorem riverCell_last :
    plan.riverCell width (plan.riverLength width - 1) = (width - 2, plan.sourceY) := by
  obtain ⟨-, hlow, hhigh⟩ := bend_bounds hfits.tie hwidth
  have hsource := hfits.source
  unfold CandidatePlan.riverLength
  rcases riverCell_cases plan width (width - 2 - width * 30 / 100 +
    (plan.sourceY - plan.outletY) + 1 - 1) with ⟨h, heq⟩ | ⟨h, h', heq⟩ | ⟨h, heq⟩
  · omega
  · omega
  · rw [heq, Prod.mk.injEq]
    omega

end course

section tiles

variable {world : World} {i j : Nat}

/-- Reading a tile after an update. -/
theorem World.tile_modifyTile (world : World) (i j : Nat) (f : Tile → Tile) :
    (world.modifyTile i f).tile j =
      if i = j ∧ j < world.tileCount then f (world.tile j) else world.tile j := by
  rw [World.tile, World.tile, World.modifyTile, List.getD_eq_getElem?_getD,
    List.getD_eq_getElem?_getD, List.getElem?_modify]
  rcases htile : world.tiles[j]? with _ | tile
  · have hj : ¬ j < world.tileCount := Nat.not_lt.mpr (List.getElem?_eq_none_iff.mp htile)
    rw [if_neg fun h => hj h.2]
    rfl
  · have hj : j < world.tileCount := (List.getElem?_eq_some_iff.mp htile).1
    by_cases hi : i = j
    · rw [if_pos ⟨hi, hj⟩, Option.map_eq_map, Option.map_some, if_pos hi]
      rfl
    · rw [if_neg fun h => hi h.1, Option.map_eq_map, Option.map_some, if_neg hi]

theorem World.tile_modifyTile_self {f : Tile → Tile} (h : i < world.tileCount) :
    (world.modifyTile i f).tile i = f (world.tile i) := by
  rw [World.tile_modifyTile, if_pos ⟨rfl, h⟩]

theorem World.tile_modifyTile_of_ne {f : Tile → Tile} (h : j ≠ i) :
    (world.modifyTile i f).tile j = world.tile j := by
  rw [World.tile_modifyTile, if_neg fun heq => h heq.1.symm]

@[simp] theorem World.tileCount_modifyTile {f : Tile → Tile} :
    (world.modifyTile i f).tileCount = world.tileCount := List.length_modify _ _ _

/-- Land that is high enough takes the river. -/
theorem fdSetRiverTile_ok (world : World) (index elevation : Nat)
    (hland : (world.tile index).terrain ≠ fdTerrainWater)
    (helevation : (elevation : Int) ≤ (world.tile index).elevationCm.toInt) :
    ∃ carve, fdSetRiverTile world index elevation = .ok
      { world.modifyTile index (fun tile => { tile with
          overlays := tile.overlays ||| fdTileOverlayRiver
          terrain := fdTerrainGrassland
          elevationCm := Int32.ofNat elevation }) with riverMinCarveCm := carve } := by
  have hnonneg : (0 : Int32) ≤ (world.tile index).elevationCm := by
    rw [Int32.le_iff_toInt_le]
    exact (Int.natCast_nonneg elevation).trans helevation
  have hprevious : elevation ≤ (world.tile index).elevationCm.toUInt32.toNat := by
    rw [Int32.toNat_toUInt32_of_le hnonneg, Int32.toNatClampNeg]
    omega
  unfold fdSetRiverTile
  simp only
  rw [if_neg (not_or.mpr ⟨hland, Int32.not_lt.mpr hnonneg⟩), if_neg (Nat.not_lt.mpr hprevious)]
  exact ⟨_, rfl⟩

end tiles

/-- The part of a map that only the coast counts. -/
structure World.SameSurvey (v w : World) : Prop where
  config : w.config = v.config
  tileCount : w.tileCount = v.tileCount
  landTileCount : w.landTileCount = v.landTileCount
  riverRaisedTileCount : w.riverRaisedTileCount = v.riverRaisedTileCount

theorem World.SameSurvey.refl (v : World) : v.SameSurvey v := ⟨rfl, rfl, rfl, rfl⟩

theorem World.SameSurvey.trans {u v w : World} (h : u.SameSurvey v) (k : v.SameSurvey w) :
    u.SameSurvey w where
  config := k.config.trans h.config
  tileCount := k.tileCount.trans h.tileCount
  landTileCount := k.landTileCount.trans h.landTileCount
  riverRaisedTileCount := k.riverRaisedTileCount.trans h.riverRaisedTileCount

theorem World.SameSurvey.modifyTile (v : World) (i : Nat) (f : Tile → Tile) :
    v.SameSurvey (v.modifyTile i f) := ⟨rfl, World.tileCount_modifyTile, rfl, rfl⟩

/-- The bits of a river tile. -/
def riverBits (i : Nat) : UInt32 :=
  if i = 0 then fdTileOverlayRiver ||| fdTileRiverOutlet else fdTileOverlayRiver

/-- The river has been laid on its first tiles. -/
structure RiverLaid (tiles : Nat → Nat) (count : Nat) (v w : World) : Prop
    extends v.SameSurvey w where
  river : ∀ i < count, w.tile (tiles i) =
    { v.tile (tiles i) with
      overlays := (v.tile (tiles i)).overlays ||| riverBits i
      terrain := fdTerrainGrassland
      elevationCm := Int32.ofNat (100 + i) }
  rest : ∀ index, (∀ i < count, index ≠ tiles i) → w.tile index = v.tile index

section river

variable {tiles : Nat → Nat} {v w : World}

/-- The next tile upstream. -/
theorem RiverLaid.step {i : Nat} (h : RiverLaid tiles (i + 1) v w)
    (hin : tiles (i + 1) < v.tileCount) (hnew : ∀ j ≤ i, tiles (i + 1) ≠ tiles j)
    (hland : (v.tile (tiles (i + 1))).terrain ≠ fdTerrainWater)
    (hhigh : ((100 + (i + 1) : Nat) : Int) ≤ (v.tile (tiles (i + 1))).elevationCm.toInt) :
    ∃ w', fdSetRiverTile w (tiles (i + 1)) (101 + i) = .ok w' ∧ RiverLaid tiles (i + 2) v w' := by
  have hsame : w.tile (tiles (i + 1)) = v.tile (tiles (i + 1)) :=
    h.rest _ fun j hj => hnew j (Nat.le_of_lt_succ hj)
  have hnumber : 101 + i = 100 + (i + 1) := by omega
  obtain ⟨carve, hset⟩ := fdSetRiverTile_ok w (tiles (i + 1)) (100 + (i + 1))
    (hsame.symm ▸ hland) (hsame.symm ▸ hhigh)
  rw [hnumber]
  refine ⟨_, hset, h.toSameSurvey.trans ⟨rfl, World.tileCount_modifyTile, rfl, rfl⟩, ?_, ?_⟩
  · intro j hj
    rcases Nat.lt_succ_iff_lt_or_eq.mp hj with hlt | rfl
    · refine Eq.trans ?_ (h.river j hlt)
      exact World.tile_modifyTile_of_ne (hnew j (Nat.le_of_lt_succ hlt)).symm
    · refine (World.tile_modifyTile_self (h.tileCount.symm ▸ hin)).trans ?_
      rw [hsame, riverBits, if_neg (Nat.succ_ne_zero i)]
  · intro index hindex
    refine Eq.trans ?_ (h.rest index fun j hj => hindex j (Nat.lt_succ_of_lt hj))
    exact World.tile_modifyTile_of_ne (hindex (i + 1) (Nat.lt_succ_self _))

/-- The outlet. -/
theorem riverLaid_outlet (hin : tiles 0 < v.tileCount)
    (hland : (v.tile (tiles 0)).terrain ≠ fdTerrainWater)
    (hhigh : (100 : Int) ≤ (v.tile (tiles 0)).elevationCm.toInt) :
    ∃ w, fdSetRiverTile v (tiles 0) 100 = .ok w ∧
      RiverLaid tiles 1 v (w.modifyTile (tiles 0) fun tile =>
        { tile with overlays := tile.overlays ||| fdTileRiverOutlet }) := by
  obtain ⟨carve, hset⟩ := fdSetRiverTile_ok v (tiles 0) 100 hland hhigh
  refine ⟨_, hset, ⟨rfl, World.tileCount_modifyTile.trans World.tileCount_modifyTile, rfl, rfl⟩,
    ?_, ?_⟩
  · intro j hj
    obtain rfl := Nat.lt_one_iff.mp hj
    refine (World.tile_modifyTile_self (hin.trans_eq World.tileCount_modifyTile.symm)).trans ?_
    rw [show World.tile _ (tiles 0) = _ from World.tile_modifyTile_self hin, riverBits, if_pos rfl]
    simp only [UInt32.or_assoc]
  · intro index hindex
    have hne := hindex 0 Nat.one_pos
    exact (World.tile_modifyTile_of_ne hne).trans (World.tile_modifyTile_of_ne hne)

end river

section construct

variable {plan : CandidatePlan} {waterWidth : Nat → Nat} {v : World}

/-- The land carries the river at every height it needs. -/
theorem riverTile_land (hbounds : v.boundsHold) (hfits : plan.Fits v.height)
    (hshore : ShoreLine plan v waterWidth) (hmap : LandMap plan.westWater waterWidth v) {i : Nat}
    (hi : i < plan.riverLength v.width) :
    waterWidth (plan.riverCell v.width i).2 ≤ (plan.riverCell v.width i).1 ∧
      (v.tile (plan.riverTile v.width i)).terrain ≠ fdTerrainWater ∧
      ((100 + i : Nat) : Int) ≤ (v.tile (plan.riverTile v.width i)).elevationCm.toInt := by
  obtain ⟨hlow, -, hlow', -⟩ := hbounds.sizes
  obtain ⟨hd, hy⟩ := riverCell_lt hfits hlow hlow' hi
  obtain ⟨hleast, -, -, -, hplace⟩ := riverCell_bounds hfits hlow hi
  obtain ⟨hnumber, hnumber'⟩ := le_riverCell hfits hlow i
  have hmost := hshore.most (plan.riverCell v.width i).2
  have hdepth : waterWidth (plan.riverCell v.width i).2 ≤ (plan.riverCell v.width i).1 ∧
      i ≤ 100 * ((plan.riverCell v.width i).1 - waterWidth (plan.riverCell v.width i).2) := by
    by_cases hrow : (plan.riverCell v.width i).2 = plan.outletY
    · have hnumber := hnumber' hrow
      rw [hrow, hshore.outlet]
      omega
    · have hfar := hplace.resolve_left hrow
      omega
  obtain ⟨elevation, rainfall, htile, hhigh, -⟩ := hmap.land _ _ hd hy hdepth.1
  rw [CandidatePlan.riverTile, htile]
  refine ⟨hdepth.1, show fdTerrainGrassland ≠ fdTerrainWater by decide, ?_⟩
  dsimp only
  omega

/-- The course the generator takes, by the numbers of its tiles. -/
theorem getElem_course (hfits : plan.Fits v.height) (hwidth : 32 ≤ v.width) {i : Nat}
    (hi : i < ((riverCourse (fdCoastX plan.westWater v.width (v.width * 30 / 100)) plan.outletY
      (plan.bendX v.width) (if plan.westWater then v.width - 2 else 1)
      plan.sourceY).zipIdx 101).length) :
    i + 1 < plan.riverLength v.width ∧
      ((riverCourse (fdCoastX plan.westWater v.width (v.width * 30 / 100)) plan.outletY
        (plan.bendX v.width) (if plan.westWater then v.width - 2 else 1)
        plan.sourceY).zipIdx 101)[i] =
      ((shore plan.westWater v.width (plan.riverCell v.width (i + 1)).1,
        (plan.riverCell v.width (i + 1)).2), 101 + i) := by
  have hcourse := riverCourse_eq hfits hwidth
  constructor
  · rw [List.length_zipIdx, hcourse, List.length_map, List.length_range] at hi
    omega
  · rw [List.getElem_zipIdx]
    simp only [hcourse, List.getElem_map, List.getElem_range]

/-- The river of a plan is carved into the land, without raising a tile. -/
theorem constructRiver_ok (hbounds : v.boundsHold) (hfits : plan.Fits v.height)
    (hshore : ShoreLine plan v waterWidth) (hmap : LandMap plan.westWater waterWidth v) :
    ∃ w, RiverLaid (plan.riverTile v.width) (plan.riverLength v.width) v w ∧
      fdConstructRiver v plan.westWater v.baseWaterWidth plan.outletY plan.sourceY
          plan.tieChoice =
        .ok (w.setTerrain (plan.sourceTile v.width) fdTerrainHills, plan.riverTile v.width 0,
          plan.riverLength v.width) := by
  obtain ⟨hlow, -, hlow', -, hsize⟩ := hbounds.sizes
  have hpos : 0 < plan.riverLength v.width := Nat.succ_pos _
  have hin : ∀ {i}, i < plan.riverLength v.width → plan.riverTile v.width i < v.tileCount :=
    fun hi => hsize ▸ riverTile_lt hfits hlow hlow' hi
  have hland : ∀ {i}, i < plan.riverLength v.width → _ := fun hi =>
    riverTile_land hbounds hfits hshore hmap hi
  obtain ⟨first, hset, hfirst⟩ := riverLaid_outlet (hin hpos) (hland hpos).2.1 (hland hpos).2.2
  have hrun := forEach_total (P := fun i w => RiverLaid (plan.riverTile v.width) (i + 1) v w)
    ((riverCourse (fdCoastX plan.westWater v.width (v.width * 30 / 100)) plan.outletY
      (plan.bendX v.width) (if plan.westWater then v.width - 2 else 1) plan.sourceY).zipIdx 101)
    (fun world cell => fdSetRiverTile world (cell.1.2 * v.width + cell.1.1) cell.2) _ hfirst ?_
  · obtain ⟨w, hw, hlaid⟩ := hrun
    have hlength : (riverCourse (fdCoastX plan.westWater v.width (v.width * 30 / 100)) plan.outletY
        (plan.bendX v.width) (if plan.westWater then v.width - 2 else 1) plan.sourceY).length + 1 =
        plan.riverLength v.width := by
      rw [riverCourse_eq hfits hlow, List.length_map, List.length_range]
      omega
    rw [List.length_zipIdx, hlength] at hlaid
    refine ⟨w, hlaid, ?_⟩
    have houtlet : plan.outletY * v.width + fdCoastX plan.westWater v.width v.baseWaterWidth =
        plan.riverTile v.width 0 := by
      rw [CandidatePlan.riverTile, riverCell_zero, shoreCell, ← fdCoastX_eq (by omega)]
      rfl
    have hsource : plan.sourceY * v.width + (if plan.westWater then v.width - 2 else 1) =
        plan.sourceTile v.width := by
      rw [CandidatePlan.sourceTile, CandidatePlan.riverTile, riverCell_last hfits hlow, shoreCell,
        shore]
      dsimp only
      split
      · rfl
      · omega
    unfold fdConstructRiver
    dsimp only
    rw [houtlet, hset, ok_bind]
    exact (congrArg (· >>= _) hw).trans (by
      rw [ok_bind, hsource]
      exact congrArg (fun count => Except.ok (_, _, count)) hlength)
  · intro i hi w hw
    obtain ⟨hnext, hcell⟩ := getElem_course hfits hlow hi
    rw [hcell]
    refine hw.step (hin hnext) (fun j hj heq => ?_) (hland hnext).2.1 (hland hnext).2.2
    have hsame := riverTile_inj hfits hlow hlow' hnext (by omega) heq
    omega

end construct

end FrontierDirectorate
