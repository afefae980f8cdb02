import Mathlib
import FrontierDirectorate.Core.SettleShape
import FrontierDirectorate.Core.RiverLaws
import FrontierDirectorate.Core.RoadLaws
import FrontierDirectorate.Core.CoastLaws

/-!
# The checks of a finished map

A map that the generator has finished passes every check of the validator but the one
that counts the kinds of terrain.
-/
namespace FrontierDirectorate
open Checks

section coast

variable {plan : CandidatePlan} {waterWidth : Nat → Nat} {world : World}

/-- The scan of a row whose land is an interval. -/
theorem scanRow_interval {width first last : Nat} (land : Nat → Bool) (hle : first ≤ last)
    (hlast : last < width) (hland : ∀ x < width, land x = true ↔ first ≤ x ∧ x ≤ last) :
    ∃ row, scanRow width land = some row ∧ row.sawLand = true ∧ row.start = first ∧
      row.stop = last := by
  obtain ⟨row, hrow, hsaw, hstart, hstop, -⟩ := foldlM_total
    (P := fun count (s : RowScan) => (s.sawLand = true ↔ first < count) ∧
      (first < count → s.start = first) ∧ (first < count → s.stop = min last (count - 1)) ∧
      (s.gapAfterLand = true ↔ last + 1 < count))
    (List.range width) (rowScanStep land) ⟨width, 0, false, false⟩
    ⟨iff_of_false Bool.false_ne_true (Nat.not_lt_zero _), fun h => absurd h (Nat.not_lt_zero _),
      fun h => absurd h (Nat.not_lt_zero _), iff_of_false Bool.false_ne_true (Nat.not_lt_zero _)⟩
    fun x hx s h => by
      rw [List.length_range] at hx
      rw [List.getElem_range]
      obtain ⟨hsaw, hstart, hstop, hgap⟩ := h
      have hcolumn := hland x hx
      unfold rowScanStep
      by_cases hin : first ≤ x ∧ x ≤ last
      · have hnoGap : ¬ s.gapAfterLand = true := fun h => by
          have hpast := hgap.mp h
          omega
        rw [if_pos (hcolumn.mpr hin), if_neg hnoGap]
        refine ⟨_, rfl, iff_of_true rfl (by omega), fun _ => ?_, fun _ => by dsimp only; omega,
          iff_of_false hnoGap (by omega)⟩
        dsimp only
        split
        · next hseen => exact hstart (hsaw.mp hseen)
        · next hseen =>
            have hnot : ¬ first < x := fun h => hseen (hsaw.mpr h)
            omega
      · rw [if_neg fun h => hin (hcolumn.mp h)]
        refine ⟨_, rfl, ?_, fun h => ?_, fun h => ?_, ?_⟩
        · exact hsaw.trans (by omega)
        · exact hstart (by omega)
        · rw [hstop (by omega)]
          omega
        · rw [Bool.or_eq_true, hsaw, hgap]
          omega
  rw [List.length_range] at hsaw hstart hstop
  refine ⟨row, hrow, hsaw.mpr (by omega), hstart (by omega), (hstop (by omega)).trans (by omega)⟩

/-- Land by columns. -/
theorem World.Watered.land_iff (h : world.Watered plan waterWidth) {x y : Nat}
    (hx : x < world.width) (hy : y < world.height) :
    (world.terrain (y * world.width + x) != fdTerrainWater) =
      !coastWater plan.westWater world.width (waterWidth y) x := by
  have hsea := h.sea _ y (shore_lt plan.westWater hx) hy
  rw [shoreCell, shore_shore _ hx, ← coastWater_iff _ _ hx] at hsea
  rw [bne, Bool.eq_iff_iff, Bool.not_eq_true', Bool.not_eq_true', ← Bool.not_eq_true,
    ← Bool.not_eq_true, beq_iff_eq, hsea]

/-- The rows of the map: land on each, and always at the far edge. -/
theorem coastRowStep_ok (h : world.Watered plan waterWidth) {y : Nat} (hy : y < world.height)
    (hwidth : waterWidth y < world.width) {previous : Nat × Nat}
    (hprevious : 0 < y → previous.1 ≤ shore plan.westWater world.width (world.width - 1) ∧
      shore plan.westWater world.width (world.width - 1) ≤ previous.2) :
    ∃ next, coastRowStep world previous y = some next ∧
      next.1 ≤ shore plan.westWater world.width (world.width - 1) ∧
      shore plan.westWater world.width (world.width - 1) ≤ next.2 := by
  obtain ⟨first, last, hle, hlast, hedge, hedge', hinterval⟩ : ∃ first last, first ≤ last ∧
      last < world.width ∧ first ≤ shore plan.westWater world.width (world.width - 1) ∧
      shore plan.westWater world.width (world.width - 1) ≤ last ∧ ∀ x < world.width,
        (!coastWater plan.westWater world.width (waterWidth y) x) = true ↔
          first ≤ x ∧ x ≤ last := by
    unfold coastWater shore
    cases plan.westWater with
    | true =>
        refine ⟨waterWidth y, world.width - 1, by omega, by omega, by simp only [if_true]; omega,
          by simp only [if_true]; omega, fun x hx => ?_⟩
        simp only [if_true, Bool.not_eq_true', decide_eq_false_iff_not]
        omega
    | false =>
        refine ⟨0, world.width - waterWidth y - 1, by omega, by omega, by omega,
          by simp only [Bool.false_eq_true, if_false]; omega, fun x hx => ?_⟩
        simp only [Bool.false_eq_true, if_false, Bool.not_eq_true', decide_eq_false_iff_not]
        omega
  obtain ⟨row, hrow, hsaw, rfl, rfl⟩ := scanRow_interval
    (fun x => world.terrain (y * world.width + x) != fdTerrainWater) hle hlast fun x hx => by
      rw [h.land_iff hx hy]
      exact hinterval x hx
  refine ⟨(row.start, row.stop), ?_, hedge, hedge'⟩
  refine Option.bind_eq_some_iff.mpr ⟨row, hrow, ?_⟩
  have hoverlap : ¬ (0 < y ∧ (row.stop < previous.1 ∨ previous.2 < row.start)) := by
    rintro ⟨hpos, hapart⟩
    obtain ⟨hleft, hright⟩ := hprevious hpos
    omega
  rw [hsaw, if_neg hoverlap]
  rfl

/-- The share of land is right on every row, and so it is on the map. -/
theorem landArea_ratio {width : Nat} (hwidth : 32 ≤ width)
    (hleast : ∀ y, width * 30 / 100 ≤ waterWidth y + width / 32)
    (hmost : ∀ y, waterWidth y ≤ width * 30 / 100 + width / 32) (height : Nat) :
    width * height * 55 ≤ landArea width height waterWidth * 100 ∧
      landArea width height waterWidth * 100 ≤ width * height * 80 := by
  induction height with
  | zero => exact ⟨Nat.le_refl _, Nat.le_refl _⟩
  | succ height ih =>
      have hleast := hleast height
      have hmost := hmost height
      rw [landArea_succ, Nat.mul_succ width height]
      omega

/-- The members of a map, row by row. -/
theorem length_filter_rows (p : Nat → Bool) (width height : Nat) :
    ((List.range (width * height)).filter p).length =
      ∑ y ∈ Finset.range height, ((List.range width).filter fun x => p (y * width + x)).length := by
  induction height with
  | zero => rfl
  | succ height ih =>
      rw [Finset.sum_range_succ, ← ih, Nat.mul_succ, List.range_add, List.filter_append,
        List.length_append, List.filter_map, List.length_map, Nat.mul_comm width height]
      rfl

theorem landTiles_eq (hbounds : world.boundsHold) (hshore : ShoreLine plan world waterWidth)
    (h : world.Watered plan waterWidth) :
    world.landTiles = landArea world.width world.height waterWidth := by
  rw [World.landTiles, hbounds.tileCount_eq, length_filter_rows, landArea]
  refine Finset.sum_congr rfl fun y hy => ?_
  rw [Finset.mem_range] at hy
  rw [← row_land_length plan.westWater (hshore.lt hbounds y).le]
  refine congrArg List.length (List.filter_congr fun x hx => ?_)
  exact h.land_iff (List.mem_range.mp hx) hy

/-- The coast check. -/
theorem landCoast_ok (hbounds : world.boundsHold) (hshore : ShoreLine plan world waterWidth)
    (h : world.Watered plan waterWidth) : world.landCoastHolds = true := by
  obtain ⟨hlow, -, hlow', -, hsize⟩ := hbounds.sizes
  have hfirst := (reported_scan hbounds).eq_max h.rules
  obtain ⟨hleast, hmost⟩ := landArea_ratio hlow hshore.least hshore.most world.height
  obtain ⟨last, hrows, -⟩ := foldlM_total
    (P := fun y (previous : Nat × Nat) =>
      0 < y → previous.1 ≤ shore plan.westWater world.width (world.width - 1) ∧
        shore plan.westWater world.width (world.width - 1) ≤ previous.2)
    (List.range world.height) (coastRowStep world) (0, 0) (fun h => absurd h (Nat.lt_irrefl 0))
    fun y hy previous hprevious => by
      rw [List.length_range] at hy
      rw [List.getElem_range]
      obtain ⟨next, hnext, hedge⟩ := coastRowStep_ok h hy (hshore.lt hbounds y) hprevious
      exact ⟨next, hnext, fun _ => hedge⟩
  rw [World.landCoastHolds, Bool.and_eq_true, beq_iff_eq]
  refine ⟨hfirst, ?_⟩
  rw [fdValidateCoastLand, scanTiles_land, landTiles_eq hbounds hshore h, hsize]
  rw [if_neg (by omega), hrows]
  rfl

end coast

/-- A map with its road. -/
structure World.Finished (world : World) (plan : CandidatePlan) (waterWidth : Nat → Nat)
    (road : List Nat) : Prop extends world.Watered plan waterWidth where
  settled : ∀ i < world.tileCount, world.terrain i = fdTerrainSettlement ↔
    i = world.harbourIndex plan ∨ i = world.marketIndex plan
  ids : ∀ i < world.tileCount, (world.tile i).settlementId =
    if i = world.harbourIndex plan then fdMakeEntityId 2
    else if i = world.marketIndex plan then fdMakeEntityId 3 else 0
  peopled : world.Peopled (fdCoastX plan.westWater world.width world.baseWaterWidth)
    plan.coastalY (world.inlandX plan.westWater) world.inlandY (plan.riverTile world.width 0)
  landTileCount : world.landTileCount = UInt32.ofNat (landArea world.width world.height waterWidth)
  riverTileCount : world.riverTileCount = UInt32.ofNat (plan.riverLength world.width)
  roadTileCount : world.roadTileCount.toNat = road.length
  regionCounts : world.region.riverTileCount = world.riverTileCount ∧
    world.region.roadTileCount = world.roadTileCount
  roadPath : world.InducedPath fdTileOverlayRoadCandidate road
  roadEnds : road.head? = some (world.harbourIndex plan) ∧
    road.getLast? = some (world.marketIndex plan)
  roadGround : ∀ i ∈ road, world.terrain i ≠ fdTerrainWater
  roadRiver : (world.rivers road).length ≤ 1
  crossing : ∀ i < world.tileCount, world.hasOverlay i fdTileRoadCrossing ↔
    world.hasOverlay i fdTileOverlayRoadCandidate ∧ world.hasOverlay i fdTileOverlayRiver

section river

variable {plan : CandidatePlan} {waterWidth : Nat → Nat} {world : World}

/-- The river from the outlet to the source. -/
def CandidatePlan.riverPath (plan : CandidatePlan) (width : Nat) : List Nat :=
  (List.range (plan.riverLength width)).map (plan.riverTile width)

theorem riverPath_length (plan : CandidatePlan) (width : Nat) :
    (plan.riverPath width).length = plan.riverLength width := by
  rw [CandidatePlan.riverPath, List.length_map, List.length_range]

theorem riverPath_ends (plan : CandidatePlan) (width : Nat) :
    (plan.riverPath width).head? = some (plan.riverTile width 0) ∧
      (plan.riverPath width).getLast? = some (plan.sourceTile width) := by
  have hpos : plan.riverLength width ≠ 0 := Nat.succ_ne_zero _
  rw [CandidatePlan.riverPath, List.head?_map, List.head?_range, if_neg hpos, List.getLast?_map,
    List.getLast?_range, if_neg hpos]
  exact ⟨rfl, rfl⟩

theorem riverPath_induced (hbounds : world.boundsHold) (hfits : plan.Fits world.height)
    (h : world.Watered plan waterWidth) :
    world.InducedPath fdTileOverlayRiver (plan.riverPath world.width) := by
  obtain ⟨hlow, -, hlow', -, hsize⟩ := hbounds.sizes
  refine ⟨fun i => ?_, ?_, fun i j hi hj => ?_⟩
  · rw [CandidatePlan.riverPath, List.mem_map]
    constructor
    · rintro ⟨j, hj, rfl⟩
      rw [List.mem_range] at hj
      have hin : plan.riverTile world.width j < world.tileCount :=
        hsize ▸ riverTile_lt hfits hlow hlow' hj
      exact ⟨hin, (h.river _ hin).mpr ⟨j, hj, rfl⟩⟩
    · rintro ⟨hin, hriver⟩
      obtain ⟨j, hj, rfl⟩ := (h.river i hin).mp hriver
      exact ⟨j, List.mem_range.mpr hj, rfl⟩
  · refine List.Nodup.map_on (fun i hi j hj heq => ?_) List.nodup_range
    rw [List.mem_range] at hi hj
    exact riverTile_inj hfits hlow hlow' hi hj heq
  · simp only [CandidatePlan.riverPath, List.length_map, List.length_range] at hi hj
    simp only [CandidatePlan.riverPath, List.getElem_map, List.getElem_range]
    exact riverTile_adjacent hfits hlow hlow' hi hj

/-- River tiles are land. -/
theorem riverTile_ground (hfits : plan.Fits world.height) (hbounds : world.boundsHold)
    (h : world.Watered plan waterWidth) {j : Nat} (hj : j < plan.riverLength world.width) :
    world.terrain (plan.riverTile world.width j) ≠ fdTerrainWater := by
  obtain ⟨hlow, hhigh, hlow', -, hsize⟩ := hbounds.sizes
  intro hwater
  have hzero := (h.rules _ (hsize ▸ riverTile_lt hfits hlow hlow' hj)).water hwater
  have hnumber : 100 + j < 2 ^ 31 := by
    unfold CandidatePlan.riverLength at hj
    have hsource := hfits.source
    omega
  have hpos := ofNat_pos (show 0 < 100 + j by omega) hnumber
  rw [← h.heights j hj, hzero] at hpos
  exact absurd hpos (by decide)

/-- Neither settlement is on the river. -/
theorem settlements_dry (hbounds : world.boundsHold) (hfits : plan.Fits world.height) {j : Nat}
    (hj : j < plan.riverLength world.width) :
    plan.riverTile world.width j ≠ world.harbourIndex plan ∧
      plan.riverTile world.width j ≠ world.marketIndex plan := by
  obtain ⟨hlow, -, hlow', -, -⟩ := hbounds.sizes
  obtain ⟨hd, hy⟩ := riverCell_lt hfits hlow hlow' hj
  obtain ⟨-, -, hrow, hrow', hplace⟩ := riverCell_bounds hfits hlow hj
  have houtlet := hfits.outlet
  have hsource := hfits.source
  rw [harbourIndex_eq hlow, marketIndex_eq hlow, CandidatePlan.riverTile]
  constructor
  · intro heq
    obtain ⟨hdepth, hline⟩ := shoreCell_inj hd (by omega) heq
    omega
  · intro heq
    obtain ⟨hdepth, hline⟩ := shoreCell_inj hd (by omega) heq
    omega

theorem fdAbsDiff_le (a b c d : Nat) : a - b ≤ fdManhattan a c b d := by
  unfold fdManhattan fdAbsDiffU32
  split <;> omega

/-- The sea is at least `bound` columns away from a depth. -/
theorem sea_far (hbounds : world.boundsHold) (hshore : ShoreLine plan world waterWidth)
    (h : world.Watered plan waterWidth) {d y bound : Nat} (hd : d < world.width)
    (hfar : world.width * 30 / 100 + world.width / 32 + bound ≤ d + 1) {i : Nat}
    (hi : i < world.tileCount) (hwater : world.terrain i = fdTerrainWater) :
    bound ≤ fdManhattan (shoreCell plan.westWater world.width d y % world.width)
      (shoreCell plan.westWater world.width d y / world.width) (i % world.width)
      (i / world.width) := by
  rw [hbounds.tileCount_eq] at hi
  obtain ⟨d', y', hd', hy', rfl⟩ := exists_shoreCell plan.westWater hi
  have hdepth := (h.sea d' y' hd' hy').mp hwater
  have hmost := hshore.most y'
  rw [fdManhattan_shoreCell hd hd']
  refine Nat.le_trans ?_ (fdAbsDiff_le _ _ _ _)
  omega

/-- The river of a finished map rises from the sea to the hills. -/
theorem risingRiver_ok {road : List Nat} (hbounds : world.boundsHold)
    (hfits : plan.Fits world.height) (hshore : ShoreLine plan world waterWidth)
    (h : world.Finished plan waterWidth road) :
    world.RisingRiver (plan.riverPath world.width) := by
  obtain ⟨hlow, hhigh, hlow', -, hsize⟩ := hbounds.sizes
  obtain ⟨hhead, hlast⟩ := riverPath_ends plan world.width
  have hsmall : plan.riverLength world.width < 1000 := by
    unfold CandidatePlan.riverLength
    have hsource := hfits.source
    omega
  refine ⟨riverPath_induced hbounds hfits h.toWatered, ?_, ?_, ?_, ?_, ?_, ?_⟩
  · rw [riverPath_length]
    unfold CandidatePlan.riverLength
    omega
  · rw [CandidatePlan.riverPath, List.pairwise_map]
    refine List.pairwise_lt_range.imp_of_mem fun {i j} hi hj hlt => ?_
    rw [List.mem_range] at hi hj
    rw [World.Rising, h.heights i hi, h.heights j hj, Int32.lt_iff_toInt_lt,
      Int32.toInt_ofNat_of_lt (by omega), Int32.toInt_ofNat_of_lt (by omega)]
    omega
  · intro i hi
    obtain ⟨j, hj, rfl⟩ := List.mem_map.mp hi
    rw [List.mem_range] at hj
    refine ⟨riverTile_ground hfits hbounds h.toWatered hj, fun hsettled => ?_⟩
    obtain ⟨hharbour, hmarket⟩ := settlements_dry hbounds hfits hj
    have hplace := (h.settled _ (hsize ▸ riverTile_lt hfits hlow hlow' hj)).mp hsettled
    exact hplace.elim hharbour hmarket
  · intro i hi
    rw [h.outlet i hi, hhead, Option.some_inj, eq_comm]
  · intro i hi
    rw [hhead] at hi
    cases hi
    have houtlet := hfits.outlet
    have hin : shoreCell plan.westWater world.width (world.width * 30 / 100 - 1) plan.outletY <
        world.tileCount := hsize ▸ shoreCell_lt (by omega) (by omega)
    refine ⟨_, hin, ?_, (h.sea _ _ (by omega) (by omega)).mpr (by rw [hshore.outlet]; omega)⟩
    rw [World.Adjacent, Adjacent, CandidatePlan.riverTile, riverCell_zero,
      fdManhattan_shoreCell (by omega) (by omega), fdManhattan_eq_one_iff]
    dsimp only
    omega
  · intro i hi
    rw [hlast] at hi
    cases hi
    refine ⟨h.source, fun water hin hwater => ?_⟩
    rw [CandidatePlan.sourceTile, CandidatePlan.riverTile, riverCell_last hfits hlow]
    exact sea_far hbounds hshore h.toWatered (by dsimp only; omega) (by dsimp only; omega) hin hwater

end river

section settlements

variable {plan : CandidatePlan} {waterWidth : Nat → Nat} {world : World} {road : List Nat}

/-- Where the two settlement entities are. -/
theorem World.Finished.places (hbounds : world.boundsHold) (hfits : plan.Fits world.height)
    (h : world.Finished plan waterWidth road) :
    world.settlementsOnMap = true ∧ world.coastalIndex = world.harbourIndex plan ∧
      world.inlandIndex = world.marketIndex plan := by
  obtain ⟨hlow, hhigh, hlow', hhigh', -⟩ := hbounds.sizes
  have houtlet := hfits.outlet
  have hwords : ∀ n : Nat, n < 1000 → (UInt32.ofNat n).toNat = n := fun n hn =>
    UInt32.toNat_ofNat_of_lt' (by rw [UInt32.size]; omega)
  have hcoast : fdCoastX plan.westWater world.width world.baseWaterWidth < world.width := by
    unfold fdCoastX World.baseWaterWidth
    split <;> omega
  have hinland : world.inlandX plan.westWater < world.width := by
    unfold World.inlandX
    split <;> omega
  have hrow : plan.coastalY < world.height := by
    unfold CandidatePlan.coastalY
    omega
  have hrow' : world.inlandY < world.height := by
    unfold World.inlandY
    omega
  have hx : (world.entity 1).x = UInt32.ofNat _ := congrArg Entity.x (h.peopled.people 1)
  have hy : (world.entity 1).y = UInt32.ofNat _ := congrArg Entity.y (h.peopled.people 1)
  have hx' : (world.entity 2).x = UInt32.ofNat _ := congrArg Entity.x (h.peopled.people 2)
  have hy' : (world.entity 2).y = UInt32.ofNat _ := congrArg Entity.y (h.peopled.people 2)
  rw [World.settlementsOnMap, World.coastalIndex, World.inlandIndex, hx, hy, hx', hy',
    hwords _ (by omega), hwords _ (by omega), hwords _ (by omega), hwords _ (by omega)]
  simp only [hcoast, hrow, hinland, hrow', decide_true, Bool.and_self]
  exact ⟨trivial, rfl, rfl⟩

/-- The two settlement tiles are all there are. -/
theorem World.Finished.count_settlements (hbounds : world.boundsHold)
    (hfits : plan.Fits world.height)
    (hshore : ShoreLine plan world waterWidth) (h : world.Finished plan waterWidth road) :
    ((List.range world.tileCount).filter (world.terrain · == fdTerrainSettlement)).length = 2 := by
  obtain ⟨hharbour, hmarket, hapart, -⟩ := settlements_apart hbounds hfits hshore h.toWatered
  have hperm : ((List.range world.tileCount).filter (world.terrain · == fdTerrainSettlement)).Perm
      [world.harbourIndex plan, world.marketIndex plan] := by
    refine (List.perm_ext_iff_of_nodup (List.nodup_range.filter _) (by simpa using hapart)).mpr
      fun i => ?_
    rw [List.mem_filter, List.mem_range, beq_iff_eq, List.mem_pair]
    constructor
    · rintro ⟨hi, hsettled⟩
      exact (h.settled i hi).mp hsettled
    · rintro (rfl | rfl)
      · exact ⟨hharbour, (h.settled _ hharbour).mpr (.inl rfl)⟩
      · exact ⟨hmarket, (h.settled _ hmarket).mpr (.inr rfl)⟩
  exact hperm.length_eq

/-- The scan of the settlements. -/
theorem settlementScan_ok (hbounds : world.boundsHold) (hshore : ShoreLine plan world waterWidth)
    (h : world.Finished plan waterWidth road) :
    ∃ s, (List.range world.tileCount).foldlM (settlementScanStep world
        (world.marketIndex plan % world.width) (world.marketIndex plan / world.width))
        ⟨0, uint32Max⟩ = some s ∧
      s.settlementTiles =
        ((List.range world.tileCount).filter (world.terrain · == fdTerrainSettlement)).length ∧
      4 ≤ s.inlandSeaDistance := by
  obtain ⟨hlow, -, hlow', -, -⟩ := hbounds.sizes
  have hrun := foldlM_total
    (P := fun count (s : SettlementScan) => s.settlementTiles =
        ((List.range count).filter (world.terrain · == fdTerrainSettlement)).length ∧
      4 ≤ s.inlandSeaDistance)
    (List.range world.tileCount) (settlementScanStep world
      (world.marketIndex plan % world.width) (world.marketIndex plan / world.width))
    ⟨0, uint32Max⟩ ⟨rfl, by decide⟩ ?_
  · rw [List.length_range] at hrun
    exact hrun
  · rintro i hi s ⟨hcount, hdistance⟩
    rw [List.length_range] at hi
    rw [List.getElem_range]
    have hstray : ¬ (world.terrain i ≠ fdTerrainSettlement ∧ (world.tile i).settlementId ≠ 0) := by
      rintro ⟨hne, hid⟩
      have hplace := mt (h.settled i hi).mpr hne
      rw [not_or] at hplace
      rw [h.ids i hi, if_neg hplace.1, if_neg hplace.2] at hid
      exact hid rfl
    have hcount' : ((List.range (i + 1)).filter (world.terrain · == fdTerrainSettlement)).length =
        if world.terrain i = fdTerrainSettlement then s.settlementTiles + 1
        else s.settlementTiles := by
      rw [List.range_succ, List.filter_append, List.length_append, ← hcount, List.filter_singleton]
      by_cases hsettled : world.terrain i = fdTerrainSettlement
      · rw [if_pos hsettled, beq_iff_eq.mpr hsettled]
        rfl
      · rw [if_neg hsettled, beq_eq_false_iff_ne.mpr hsettled]
        rfl
    rw [hcount']
    unfold settlementScanStep
    rw [if_neg hstray]
    by_cases hwater : world.terrain i = fdTerrainWater
    · have hdry : world.terrain i ≠ fdTerrainSettlement := by
        rw [hwater]
        decide
      have hfar : 4 ≤ fdManhattan (world.marketIndex plan % world.width)
          (world.marketIndex plan / world.width) (i % world.width) (i / world.width) := by
        rw [marketIndex_eq hlow]
        exact sea_far hbounds hshore h.toWatered (by omega) (by omega) hi hwater
      simp only [if_neg hdry, if_pos hwater]
      refine ⟨_, rfl, ?_⟩
      split
      · exact ⟨rfl, hfar⟩
      · exact ⟨rfl, hdistance⟩
    · simp only [if_neg hwater]
      refine ⟨_, rfl, ?_⟩
      split
      · exact ⟨rfl, hdistance⟩
      · exact ⟨rfl, hdistance⟩

/-- The settlement check. -/
theorem settlements_ok (hbounds : world.boundsHold) (hfits : plan.Fits world.height)
    (hshore : ShoreLine plan world waterWidth) (h : world.Finished plan waterWidth road) :
    fdValidateSettlements world (plan.riverTile world.width 0) = true := by
  obtain ⟨hlow, -, hlow', -, hsize⟩ := hbounds.sizes
  have houtlet := hfits.outlet
  obtain ⟨hmap, hcoastal, hinland⟩ := h.places hbounds hfits
  obtain ⟨hharbour, hmarket, hapart, -⟩ := settlements_apart hbounds hfits hshore h.toWatered
  have hcoordinates : ∀ {x y : Nat}, x < world.width →
      x = (y * world.width + x) % world.width ∧ y = (y * world.width + x) / world.width := by
    intro x y hx
    obtain ⟨hcolumn, hrow⟩ := column_row (y := y) hx
    exact ⟨hcolumn.symm, hrow.symm⟩
  have hmap' := hmap
  simp only [World.settlementsOnMap, Bool.and_eq_true, decide_eq_true_eq] at hmap'
  obtain ⟨⟨⟨hcx, -⟩, hix⟩, -⟩ := hmap'
  obtain ⟨hx, hy⟩ := hcoordinates (y := (world.entity 1).y.toNat) hcx
  obtain ⟨hx', hy'⟩ := hcoordinates (y := (world.entity 2).y.toNat) hix
  rw [← World.coastalIndex, hcoastal] at hx hy
  rw [← World.inlandIndex, hinland] at hx' hy'
  have hkind : (world.entity 1).kind = fdEntitySettlementCoastal :=
    congrArg Entity.kind (h.peopled.people 1)
  have hkind' : (world.entity 2).kind = fdEntitySettlementInland :=
    congrArg Entity.kind (h.peopled.people 2)
  have hid : (world.entity 1).id = fdMakeEntityId 2 := congrArg Entity.id (h.peopled.people 1)
  have hid' : (world.entity 2).id = fdMakeEntityId 3 := congrArg Entity.id (h.peopled.people 2)
  have hwater : fdAdjacentTerrain world (world.harbourIndex plan) fdTerrainWater = true := by
    refine (adjacentWater_iff hbounds hharbour).mpr ⟨shoreCell plan.westWater world.width
      (world.width * 30 / 100 - 1) (plan.outletY + 1), hsize ▸ shoreCell_lt (by omega) (by omega),
      ?_, (h.sea _ _ (by omega) (by omega)).mpr (by rw [hshore.harbour]; omega)⟩
    rw [World.Adjacent, Adjacent, harbourIndex_eq hlow, fdManhattan_shoreCell (by omega) (by omega),
      fdManhattan_eq_one_iff]
    omega
  have hnear : fdManhattan (world.harbourIndex plan % world.width)
      (world.harbourIndex plan / world.width) (plan.riverTile world.width 0 % world.width)
      (plan.riverTile world.width 0 / world.width) = 1 := by
    rw [harbourIndex_eq hlow, CandidatePlan.riverTile, riverCell_zero,
      fdManhattan_shoreCell (by omega) (by dsimp only; omega), fdManhattan_eq_one_iff]
    dsimp only
    omega
  have hfar : 12 ≤ fdManhattan (world.harbourIndex plan % world.width)
      (world.harbourIndex plan / world.width) (world.marketIndex plan % world.width)
      (world.marketIndex plan / world.width) := by
    rw [harbourIndex_eq hlow, marketIndex_eq hlow, fdManhattan_shoreCell (by omega) (by omega),
      fdManhattan_comm]
    exact Nat.le_trans (by omega) (fdAbsDiff_le _ _ _ _)
  obtain ⟨s, hscan, hcount, hdistance⟩ := settlementScan_ok hbounds hshore h
  rw [h.count_settlements hbounds hfits hshore] at hcount
  unfold fdValidateSettlements
  simp only
  rw [if_neg (by
      simp only [hkind, hkind', hmap, ne_eq, not_true_eq_false, or_self, not_false_eq_true]),
    if_neg ?_, hx', hy', hscan]
  · simp only [hcount, beq_self_eq_true, hdistance, decide_true, Bool.and_self]
  · rw [hcoastal, hinland, hx, hy, hx', hy', hid, hid', (h.settled _ hharbour).mpr (.inl rfl),
      (h.settled _ hmarket).mpr (.inr rfl), h.ids _ hharbour, h.ids _ hmarket, if_pos rfl,
      if_neg hapart.symm, if_pos rfl, hwater, hnear]
    simp only [ne_eq, not_true_eq_false, false_or, not_lt]
    exact hfar

end settlements

section report

variable {plan : CandidatePlan} {waterWidth : Nat → Nat} {world : World} {road : List Nat}

/-- The road of a finished map joins its settlements. -/
theorem corridor_ok (hbounds : world.boundsHold) (hfits : plan.Fits world.height)
    (hshore : ShoreLine plan world waterWidth) (h : world.Finished plan waterWidth road) :
    world.Corridor road := by
  obtain ⟨hmap, hcoastal, hinland⟩ := h.places hbounds hfits
  obtain ⟨-, -, hapart, -⟩ := settlements_apart hbounds hfits hshore h.toWatered
  obtain ⟨hhead, hlast⟩ := h.roadEnds
  have hlength : 2 ≤ road.length := by
    rcases road with _ | ⟨first, _ | ⟨second, rest⟩⟩
    · cases hhead
    · rw [List.head?_cons, Option.some_inj] at hhead
      rw [List.getLast?_singleton, Option.some_inj] at hlast
      exact absurd (hhead.symm.trans hlast) hapart
    · exact Nat.le_add_left 2 _
  exact ⟨hmap, h.roadPath, hlength, hcoastal ▸ hhead, hinland ▸ hlast, h.roadGround, h.roadRiver,
    h.crossing⟩

/-- What the river check finds. -/
theorem riverFound_eq (hbounds : world.boundsHold) (hfits : plan.Fits world.height)
    (hshore : ShoreLine plan world waterWidth) (h : world.Finished plan waterWidth road) :
    fdValidateRiver world =
      some (plan.riverLength world.width, plan.riverTile world.width 0) := by
  rw [check_of_risingRiver hbounds (risingRiver_ok hbounds hfits hshore h)
    (riverPath_ends plan world.width).1, riverPath_length]

/-- What the road check finds. -/
theorem roadFound_eq (hbounds : world.boundsHold) (hfits : plan.Fits world.height)
    (hshore : ShoreLine plan world waterWidth) (h : world.Finished plan waterWidth road) :
    fdValidateRoad world = some (road.length, (world.rivers road).length) := by
  obtain ⟨-, hcoastal, hinland⟩ := h.places hbounds hfits
  obtain ⟨hharbour, hmarket, -⟩ := settlements_apart hbounds hfits hshore h.toWatered
  refine check_of_corridor hbounds (corridor_ok hbounds hfits hshore h) ?_ ?_
  · rw [hcoastal]
    intro hriver
    obtain ⟨j, hj, heq⟩ := (h.river _ hharbour).mp hriver
    exact (settlements_dry hbounds hfits hj).1 heq.symm
  · rw [hinland]
    intro hriver
    obtain ⟨j, hj, heq⟩ := (h.river _ hmarket).mp hriver
    exact (settlements_dry hbounds hfits hj).2 heq.symm

theorem riverTileCount_toNat (hbounds : world.boundsHold) (hfits : plan.Fits world.height)
    (h : world.Finished plan waterWidth road) :
    world.riverTileCount.toNat = plan.riverLength world.width := by
  obtain ⟨hlow, hhigh, hlow', hhigh', hsize⟩ := hbounds.sizes
  have hsource := hfits.source
  rw [h.riverTileCount]
  refine UInt32.toNat_ofNat_of_lt' ?_
  rw [UInt32.size]
  unfold CandidatePlan.riverLength
  omega

theorem SameButName.eq_named {left right : Entity} (h : SameButName left right) :
    left = { right with name := left.name } := by
  obtain ⟨hid, hkind, hx, hy, hregion, howner, -⟩ := Entity.mk.inj h
  cases left
  dsimp only at hid hkind hx hy hregion howner ⊢
  rw [hid, hkind, hx, hy, hregion, howner]

/-- The ownership check. -/
theorem ownership_ok (hbounds : world.boundsHold) (hfits : plan.Fits world.height)
    (h : world.Finished plan waterWidth road) :
    fdValidateOwnershipGraph world (plan.riverLength world.width) road.length
      (plan.riverTile world.width 0) = true := by
  obtain ⟨hmap, hcoastal, hinland⟩ := h.places hbounds hfits
  obtain ⟨names, hentity, hnames⟩ : ∃ names : Fin 6 → List UInt8, (∀ index, world.entity index =
      { (blankEntities (fdCoastX plan.westWater world.width world.baseWaterWidth) plan.coastalY
          (world.inlandX plan.westWater) world.inlandY
          (List.Vector.replicate 6 Entity.zero)).get index with name := names index }) ∧
      ∀ index, (names index).length < fdMaxNameBytes := by
    exact ⟨fun index => (world.entity index).name, fun index => (h.peopled.people index).eq_named,
      h.peopled.names⟩
  obtain ⟨hid, howner, hsettlements, hforeign, houtlet, hstart, hend, -, -⟩ :=
    Region.mk.inj h.peopled.region
  obtain ⟨hriver, hroad⟩ := h.regionCounts
  change _ = fdTileIdFromIndex (world.harbourIndex plan) at hstart
  change _ = fdTileIdFromIndex (world.marketIndex plan) at hend
  unfold fdValidateOwnershipGraph
  simp only [hcoastal, hinland, hmap, hid, howner, hsettlements, hforeign, houtlet, hstart, hend,
    hriver, hroad, riverTileCount_toNat hbounds hfits h, h.roadTileCount, Bool.and_eq_true,
    beq_self_eq_true, and_true, hentity]
  and_intros
  · refine List.all_eq_true.mpr fun index _ => ?_
    rw [Bool.and_eq_true, beq_iff_eq, decide_eq_true_iff]
    refine ⟨?_, hnames index⟩
    fin_cases index <;> rfl
  all_goals rfl

end report

end FrontierDirectorate
