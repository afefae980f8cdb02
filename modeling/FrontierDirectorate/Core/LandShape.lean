import Mathlib
import FrontierDirectorate.Core.PlanShape
import FrontierDirectorate.Core.ElevationFields

/-!
# The land before the river

The coast and the fields, tile by tile: from the sea the land rises by at least a metre
with every step inland, and each row of the sea is about as wide as the others.
-/
namespace FrontierDirectorate
open Checks

section widths

variable {draws : Draws} {plan : CandidatePlan} {attempt : UInt64} {fallback : Bool} {world : World}

/-- How wide the sea may be on each row. -/
structure ShoreLine (plan : CandidatePlan) (world : World) (waterWidth : Nat → Nat) : Prop where
  outlet : waterWidth plan.outletY = world.width * 30 / 100
  harbour : waterWidth (plan.outletY + 1) = world.width * 30 / 100
  least : ∀ y, world.width * 30 / 100 ≤ waterWidth y + world.width / 32
  most : ∀ y, waterWidth y ≤ world.width * 30 / 100 + world.width / 32

theorem offsetWaterWidth_bounds (base : Nat) {amplitude offset : Nat}
    (hoffset : offset < amplitude * 2 + 1) :
    base ≤ offsetWaterWidth base amplitude offset + amplitude ∧
      offsetWaterWidth base amplitude offset ≤ base + amplitude := by
  unfold offsetWaterWidth
  split <;> omega

/-- Whatever is drawn, every row has its width. -/
theorem exists_shoreLine (hdraws : draws.Answer) (plan : CandidatePlan) (attempt : UInt64)
    (fallback : Bool) (hbounds : world.boundsHold) :
    ∃ waterWidth, ShoreLine plan world waterWidth ∧
      ∀ y, rowWaterWidth draws world plan attempt fallback y = .ok (waterWidth y) := by
  obtain ⟨hlow, hhigh, -⟩ := hbounds.sizes
  have hamplitude : world.coastAmplitude = world.width / 32 := if_neg (by omega)
  have hbase : world.baseWaterWidth = world.width * 30 / 100 := rfl
  have hrow : ∀ y, ∃ width, rowWaterWidth draws world plan attempt fallback y = .ok width ∧
      (y = plan.outletY ∨ y = plan.outletY + 1 → width = world.width * 30 / 100) ∧
      world.width * 30 / 100 ≤ width + world.width / 32 ∧
      width ≤ world.width * 30 / 100 + world.width / 32 := by
    intro y
    unfold rowWaterWidth
    simp only [hamplitude, hbase, CandidatePlan.coastalY]
    by_cases hstraight : y = plan.outletY ∨ y = plan.outletY + 1
    · rw [if_pos hstraight]
      exact ⟨_, rfl, fun _ => rfl, Nat.le_add_right _ _, Nat.le_add_right _ _⟩
    · rw [if_neg hstraight]
      cases fallback with
      | true =>
          have hoffset : y % (world.width / 32 * 2 + 1) < world.width / 32 * 2 + 1 :=
            Nat.mod_lt y (by omega)
          obtain ⟨hleast, hmost⟩ := offsetWaterWidth_bounds
            (world.width * 30 / 100) hoffset
          exact ⟨_, rfl, fun h => absurd h hstraight, hleast, hmost⟩
      | false =>
          have hword : (UInt32.ofNat (world.width / 32 * 2 + 1)).toNat =
              world.width / 32 * 2 + 1 :=
            UInt32.toNat_ofNat_of_lt' (by rw [UInt32.size]; omega)
          have hne : UInt32.ofNat (world.width / 32 * 2 + 1) ≠ 0 := by
            intro hzero
            rw [hzero] at hword
            have hpos : world.width / 32 * 2 + 1 = 0 := hword.symm
            omega
          obtain ⟨offset, hdraw, hoffset⟩ := drawIn_answer hdraws world fdRngDomainCoast
            (UInt64.ofNat y) attempt 0 fdRngSiteCoastRowOffset _ hne
          rw [hword] at hoffset
          obtain ⟨hleast, hmost⟩ := offsetWaterWidth_bounds
            (world.width * 30 / 100) hoffset
          rw [if_neg Bool.false_ne_true, hdraw]
          exact ⟨_, rfl, fun h => absurd h hstraight, hleast, hmost⟩
  choose waterWidth hwidth using hrow
  exact ⟨waterWidth, ⟨(hwidth _).2.1 (.inl rfl), (hwidth _).2.1 (.inr rfl),
    fun y => (hwidth y).2.2.1, fun y => (hwidth y).2.2.2⟩, fun y => (hwidth y).1⟩

/-- Land is left on every row. -/
theorem ShoreLine.lt {waterWidth : Nat → Nat} (h : ShoreLine plan world waterWidth)
    (hbounds : world.boundsHold) (y : Nat) : waterWidth y < world.width := by
  obtain ⟨hlow, -⟩ := hbounds.sizes
  have hmost := h.most y
  omega

end widths

section area

/-- The number of land tiles behind a shore line. -/
def landArea (width height : Nat) (waterWidth : Nat → Nat) : Nat :=
  ∑ y ∈ Finset.range height, (width - waterWidth y)

theorem landArea_succ (width height : Nat) (waterWidth : Nat → Nat) :
    landArea width (height + 1) waterWidth =
      landArea width height waterWidth + (width - waterWidth height) := Finset.sum_range_succ _ _

/-- The members of an interval among the first numbers. -/
theorem length_filter_interval (a b n : Nat) :
    ((List.range n).filter fun x => decide (a ≤ x ∧ x < b)).length = min n b - a := by
  induction n with
  | zero => simp
  | succ n ih =>
      rw [List.range_succ, List.filter_append, List.length_append, ih, List.filter_singleton]
      by_cases hin : a ≤ n ∧ n < b
      · rw [decide_eq_true hin, cond_true, List.length_singleton]
        omega
      · rw [decide_eq_false hin, cond_false, List.length_nil]
        omega

theorem row_land_length (westWater : Bool) {width waterWidth : Nat} (h : waterWidth ≤ width) :
    ((List.range width).filter fun x => !coastWater westWater width waterWidth x).length =
      width - waterWidth := by
  cases westWater with
  | true =>
      have hfilter : ((List.range width).filter fun x => !coastWater true width waterWidth x) =
          (List.range width).filter fun x => decide (waterWidth ≤ x ∧ x < width) := by
        apply List.filter_congr
        intro x hx
        rw [List.mem_range] at hx
        have hwater : coastWater true width waterWidth x = decide (x < waterWidth) := rfl
        rw [hwater, ← decide_not]
        exact decide_eq_decide.mpr (by omega)
      rw [hfilter, length_filter_interval]
      omega
  | false =>
      have hfilter : ((List.range width).filter fun x => !coastWater false width waterWidth x) =
          (List.range width).filter fun x => decide (0 ≤ x ∧ x < width - waterWidth) := by
        apply List.filter_congr
        intro x hx
        have hwater : coastWater false width waterWidth x = decide (width - waterWidth ≤ x) := rfl
        rw [hwater, ← decide_not]
        exact decide_eq_decide.mpr (by omega)
      rw [hfilter, length_filter_interval]
      omega

end area

section coast

variable {draws : Draws} {plan : CandidatePlan} {attempt : UInt64} {fallback : Bool}

/-- The counters while a row is laid. -/
theorem layCoastTiles_counts (westWater : Bool) (waterWidth y : Nat) (v : World) (n : Nat) :
    ((List.range n).foldl (layCoastTile westWater waterWidth y) v).config = v.config ∧
    ((List.range n).foldl (layCoastTile westWater waterWidth y) v).riverRaisedTileCount =
      v.riverRaisedTileCount ∧
    ((List.range n).foldl (layCoastTile westWater waterWidth y) v).landTileCount =
      v.landTileCount + UInt32.ofNat
        ((List.range n).filter fun x => !coastWater westWater v.width waterWidth x).length := by
  induction n with
  | zero => exact ⟨rfl, rfl, (UInt32.add_zero _).symm⟩
  | succ n ih =>
      obtain ⟨hconfig, hraised, hland⟩ := ih
      rw [List.range_succ, List.foldl_append, List.filter_append, List.length_append]
      generalize (List.range n).foldl (layCoastTile westWater waterWidth y) v = w at *
      have hwidth : w.width = v.width := congrArg (fun config => config.width.toNat) hconfig
      refine ⟨hconfig, hraised, ?_⟩
      simp only [List.foldl_cons, List.foldl_nil, layCoastTile, hwidth, hland]
      cases hwater : coastWater westWater v.width waterWidth n with
      | true =>
          have hnone : [n].filter (fun x => !coastWater westWater v.width waterWidth x) = [] := by
            rw [List.filter_singleton, hwater]
            rfl
          rw [hnone]
          rfl
      | false =>
          have hone : [n].filter (fun x => !coastWater westWater v.width waterWidth x) = [n] := by
            rw [List.filter_singleton, hwater]
            rfl
          rw [hone, List.length_singleton, UInt32.ofNat_add, ← UInt32.add_assoc]
          rfl

/-- The widths of the rows are those that were drawn. -/
theorem CoastLaid.of_widths {v w : World} {waterWidth waterWidth' : Nat → Nat} {rows : Nat}
    (h : CoastLaid draws plan attempt fallback v waterWidth' rows w)
    (hwidths : ∀ y, rowWaterWidth draws v plan attempt fallback y = .ok (waterWidth y)) :
    CoastLaid draws plan attempt fallback v waterWidth rows w where
  config := h.config
  count := h.count
  water := fun y _ => hwidths y
  tiles := by
    intro y x hy hx
    have hsame : waterWidth' y = waterWidth y :=
      Except.ok.inj ((h.water y hy).symm.trans (hwidths y))
    rw [h.tiles y x hy hx, hsame]

theorem layCoast_answer {v : World} (hbounds : v.boundsHold) {waterWidth : Nat → Nat}
    (hshore : ShoreLine plan v waterWidth)
    (hwidths : ∀ y, rowWaterWidth draws v plan attempt fallback y = .ok (waterWidth y)) :
    ∃ w, layCoast draws plan attempt fallback v = .ok w ∧
      CoastLaid draws plan attempt fallback v waterWidth v.height w ∧
      w.landTileCount = UInt32.ofNat (landArea v.width v.height waterWidth) ∧
      w.riverRaisedTileCount = 0 := by
  have hsize := hbounds.tileCount_eq
  have hrun := forEach_total (P := fun rows w =>
      CoastLaid draws plan attempt fallback v waterWidth rows w ∧
        w.landTileCount = UInt32.ofNat (landArea v.width rows waterWidth) ∧
        w.riverRaisedTileCount = 0)
    (List.range v.height) (layCoastRow draws plan attempt fallback) v.cleared
    ⟨⟨rfl, List.length_replicate, fun y hy => absurd hy (Nat.not_lt_zero y),
      fun y x hy => absurd hy (Nat.not_lt_zero y)⟩, rfl, rfl⟩ ?_
  · rw [List.length_range] at hrun
    exact hrun
  · rintro y hy w ⟨hlaid, hland, hraised⟩
    rw [List.length_range] at hy
    rw [List.getElem_range]
    have hwidth : w.width = v.width := congrArg (fun config => config.width.toNat) hlaid.config
    have hrow : rowWaterWidth draws w plan attempt fallback y = .ok (waterWidth y) :=
      rowWaterWidth_congr hlaid.config.symm (hwidths y)
    have hlay : layCoastRow draws plan attempt fallback w y = .ok
        ((List.range w.width).foldl (layCoastTile plan.westWater (waterWidth y) y) w) := by
      unfold layCoastRow
      rw [hrow, ok_bind]
      rfl
    have hroom : y * v.width + v.width ≤ v.tileCount := by
      rw [hsize, ← Nat.succ_mul, Nat.mul_comm v.width]
      exact Nat.mul_le_mul_right _ hy
    obtain ⟨_, hstep⟩ := hlaid.step hroom hlay
    obtain ⟨-, hraised', hland'⟩ := layCoastTiles_counts plan.westWater (waterWidth y) y w w.width
    refine ⟨_, hlay, hstep.of_widths hwidths, ?_, hraised'.trans hraised⟩
    rw [hland', row_land_length _ (hwidth ▸ (hshore.lt hbounds y).le), hland, hwidth, landArea_succ,
      UInt32.ofNat_add]

end coast

/-- The land before the river, by depth and row. -/
structure LandMap (westWater : Bool) (waterWidth : Nat → Nat) (world : World) : Prop where
  sea : ∀ d y, d < world.width → y < world.height → d < waterWidth y →
    world.tile (shoreCell westWater world.width d y) =
      { Tile.zero with terrain := fdTerrainWater, rainfallMm := 1400 }
  land : ∀ d y, d < world.width → y < world.height → waterWidth y ≤ d → ∃ elevation rainfall,
    world.tile (shoreCell westWater world.width d y) =
      { Tile.zero with
        terrain := fdTerrainGrassland
        elevationCm := elevation
        rainfallMm := rainfall } ∧
    ((100 + 100 * (d - waterWidth y) : Nat) : Int) ≤ elevation.toInt ∧ rainfall.toNat ≤ 2400

section fields

variable {draws : Draws} {plan : CandidatePlan} {attempt : UInt64} {fallback : Bool}

/-- The coast by depths. -/
theorem coastTile_shore {westWater : Bool} {width waterWidth d : Nat} (hd : d < width)
    (hwater : waterWidth < width) :
    coastTile westWater width waterWidth (shore westWater width d) =
      if d < waterWidth then
        { Tile.zero with terrain := fdTerrainWater, elevationCm := 0, rainfallMm := 1400 }
      else
        { Tile.zero with
          terrain := fdTerrainGrassland
          elevationCm := Int32.ofNat (100 + (d - waterWidth) * 100) } := by
  have hsea := coastWater_iff westWater waterWidth (shore_lt westWater hd)
  rw [shore_shore _ hd] at hsea
  unfold coastTile
  by_cases hdepth : d < waterWidth
  · rw [if_pos (hsea.mpr hdepth), if_pos hdepth]
  · rw [if_neg fun h => hdepth (hsea.mp h), if_neg hdepth]
    have hdistance : (if fdCoastX westWater width waterWidth < shore westWater width d then
        shore westWater width d - fdCoastX westWater width waterWidth
        else fdCoastX westWater width waterWidth - shore westWater width d) = d - waterWidth := by
      rw [fdCoastX_eq hwater]
      unfold shore
      cases westWater with
      | true =>
          simp only [if_true]
          split <;> omega
      | false =>
          simp only [Bool.false_eq_true, if_false]
          split <;> omega
    simp only [hdistance]

theorem drawLattice_answer (hdraws : draws.Answer) (attempt : UInt64) (world : World)
    (octave : Octave) :
    ∃ grid, drawLattice draws world attempt octave = .ok grid := by
  refine mapM_total fun cell _ => ?_
  obtain ⟨value, hdraw, -⟩ := drawIn_answer hdraws world fdRngDomainElevationLattice
    (octave.index <<< 56 ||| UInt64.ofNat (cell / octave.gridWidth world) <<< 28 |||
      UInt64.ofNat (cell % octave.gridWidth world)) attempt 0 fdRngSiteElevationTile 1024 (by decide)
  exact ⟨value, hdraw⟩

/-- The lattices are drawn, whatever the draws. -/
theorem elevationOver_answer (hdraws : draws.Answer) (attempt : UInt64) (world : World) :
    ∃ grids, Latticed world grids ∧
      elevationOver draws attempt world = .ok (fieldsOver grids world) := by
  have hover : ∃ w, elevationOver draws attempt world = .ok w := by
    obtain ⟨w, hw, -⟩ := forEach_total (P := fun _ _ => True) octaves
      (octaveOver draws attempt) world trivial fun i hi w _ => by
        obtain ⟨grid, hgrid⟩ := drawLattice_answer hdraws attempt w octaves[i]
        refine ⟨raiseLand octaves[i] grid w, ?_, trivial⟩
        rw [octaveOver, hgrid]
        rfl
    refine ⟨waterLand w, ?_⟩
    rw [elevationOver, hw]
    rfl
  obtain ⟨w, hw⟩ := hover
  obtain ⟨grids, hgrids, rfl⟩ := elevationOver_fields (fun domain subject occurrence sample site
      value hvalue => by
    obtain ⟨drawn, hdraw, hlt⟩ := hdraws domain subject occurrence sample site 1024 (by decide)
    rw [hdraw] at hvalue
    rw [← Except.ok.inj hvalue]
    exact UInt32.lt_iff_toNat_lt.mp hlt) hw
  exact ⟨grids, hgrids, hw⟩

theorem sameFrame_fieldsOver (grids : Octave → List UInt32) (w : World) :
    w.SameFrame (fieldsOver grids w) :=
  (sameFrame_foldl (fun w octave => sameFrame_raiseLand octave (grids octave) w) w).trans
    (sameFrame_waterLand _)

theorem World.tile_of_getElem? {world : World} {i : Nat} {tile : Tile}
    (h : world.tiles[i]? = some tile) : world.tile i = tile := by
  rw [World.tile, List.getD_eq_getElem?_getD, h, Option.getD_some]

/-- The fields leave a map of this shape over the coast. -/
theorem landMap_fields {v w : World} (hbounds : v.boundsHold) {waterWidth : Nat → Nat}
    (hshore : ShoreLine plan v waterWidth)
    (hlaid : CoastLaid draws plan attempt fallback v waterWidth v.height w)
    (hlay : layCoast draws plan attempt fallback v = .ok w) {grids : Octave → List UInt32}
    (hgrids : Latticed w grids) : LandMap plan.westWater waterWidth (fieldsOver grids w) := by
  obtain ⟨hlow, hhigh, hlow', hhigh', hsize⟩ := hbounds.sizes
  have hwidth : w.width = v.width := congrArg (fun config => config.width.toNat) hlaid.config
  have hheight : w.height = v.height := congrArg (fun config => config.height.toNat) hlaid.config
  have hsized : Sized w :=
    ⟨hwidth.symm ▸ ⟨hlow, hhigh⟩, hheight.symm ▸ ⟨hlow', hhigh'⟩, by
      rw [hlaid.count, hsize, hwidth, hheight]⟩
  have hsame : (fieldsOver grids w).width = v.width := hwidth
  have hsame' : (fieldsOver grids w).height = v.height := hheight
  have hcell : ∀ d y, d < v.width → y < v.height → ∃ tile,
      (fieldsOver grids w).tile (shoreCell plan.westWater v.width d y) = tile ∧
      FieldTile (coastTile plan.westWater v.width (waterWidth y) (shore plan.westWater v.width d))
        tile := by
    intro d y hd hy
    obtain ⟨tile, htile, hfield⟩ := fieldsOver_tile hsized (based_layCoast hsize hlay) hgrids
      (hlaid.tiles y _ hy (shore_lt plan.westWater hd))
    exact ⟨tile, World.tile_of_getElem? htile, hfield⟩
  constructor
  · intro d y hd hy hdepth
    rw [hsame] at hd ⊢
    rw [hsame'] at hy
    obtain ⟨tile, htile, hfield⟩ := hcell d y hd hy
    rw [coastTile_shore hd (hshore.lt hbounds y), if_pos hdepth] at hfield
    rw [htile, hfield.water rfl]
    rfl
  · intro d y hd hy hdepth
    rw [hsame] at hd ⊢
    rw [hsame'] at hy
    obtain ⟨tile, htile, hfield⟩ := hcell d y hd hy
    rw [coastTile_shore hd (hshore.lt hbounds y), if_neg (Nat.not_lt.mpr hdepth)] at hfield
    obtain ⟨addition, -, helevation, ⟨-, hrain⟩, heq⟩ := hfield.land
      (show fdTerrainGrassland ≠ fdTerrainWater by decide)
    refine ⟨tile.elevationCm, tile.rainfallMm, htile.trans heq, ?_, hrain⟩
    rw [helevation, Int32.toInt_ofNat_of_lt (by omega)]
    omega

/-- The first half of a candidate: whatever is drawn, it lays a map of this shape. -/
theorem landMap_answer {v : World} (hdraws : draws.Answer) (attempt : UInt64) (fallback : Bool)
    (hbounds : v.boundsHold) :
    ∃ plan waterWidth laid raised, layCandidate draws attempt fallback v = .ok (plan, laid) ∧
      elevationOver draws attempt laid = .ok raised ∧ plan.Fits v.height ∧
      ShoreLine plan v waterWidth ∧ raised.config = v.config ∧ raised.tileCount = v.tileCount ∧
      LandMap plan.westWater waterWidth raised ∧
      raised.landTileCount = UInt32.ofNat (landArea v.width v.height waterWidth) ∧
      raised.riverRaisedTileCount = 0 := by
  obtain ⟨plan, hplan, hfits⟩ := drawPlan_fits hdraws attempt hbounds
  obtain ⟨waterWidth, hshore, hwidths⟩ := exists_shoreLine hdraws plan attempt fallback
    hbounds
  obtain ⟨laid, hlay, hlaid, hland, hraised⟩ := layCoast_answer hbounds hshore hwidths
  obtain ⟨grids, hgrids, hover⟩ := elevationOver_answer hdraws attempt laid
  refine ⟨plan, waterWidth, laid, _, ?_, hover, hfits, hshore, hlaid.config, ?_,
    landMap_fields hbounds hshore hlaid hlay hgrids, hland, hraised⟩
  · rw [layCandidate, hplan, ok_bind, hlay, ok_bind]
    rfl
  · exact (sameFrame_fieldsOver grids laid).tileCount.trans hlaid.count

end fields

end FrontierDirectorate
