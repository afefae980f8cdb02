import Mathlib
import FrontierDirectorate.Core.Types

/-!
# World validation

`fd_validate.c`. A check that can stop early is an `Option`; `none` is its
`return false`, after which the out-parameters keep their initial values.
-/
namespace FrontierDirectorate

def fdAbsDiffU32 (left right : Nat) : Nat := if right ≤ left then left - right else right - left

def fdManhattan (ax ay cx cy : Nat) : Nat := fdAbsDiffU32 ax cx + fdAbsDiffU32 ay cy

/-- The on-map neighbours in scan order: left, right, up, down. -/
def neighbors (width height index : Nat) : List Nat :=
  (if 0 < index % width then [index - 1] else []) ++
  (if index % width + 1 < width then [index + 1] else []) ++
  (if 0 < index / width then [index - width] else []) ++
  (if index / width + 1 < height then [index + width] else [])

namespace World

def neighbors (world : World) (index : Nat) : List Nat :=
  FrontierDirectorate.neighbors world.width world.height index

/-- Whether a tile carries an overlay bit. -/
def hasOverlay (world : World) (index : Nat) (overlay : UInt32) : Bool :=
  (world.tile index).overlays &&& overlay != 0

def terrain (world : World) (index : Nat) : UInt32 := (world.tile index).terrain

end World

/-- The number of matching neighbours and the last one found (or `next` when there is none). -/
def fdNeighborCountWithOverlay (world : World) (index : Nat) (overlay : UInt32)
    (previous next : Nat) : Nat × Nat :=
  let hits := (world.neighbors index).filter fun candidate =>
    candidate != previous && world.hasOverlay candidate overlay
  (hits.length, hits.getLastD next)

def fdAdjacentTerrain (world : World) (index : Nat) (terrain : UInt32) : Bool :=
  (world.neighbors index).any fun candidate => world.terrain candidate == terrain

/-- Locals of the scan over one row. -/
structure RowScan where
  start : Nat
  stop : Nat
  sawLand : Bool
  gapAfterLand : Bool

def rowScanStep (land : Nat → Bool) (s : RowScan) (x : Nat) : Option RowScan :=
  if land x then
    if s.gapAfterLand then none
    else some { s with start := if s.sawLand then s.start else x, sawLand := true, stop := x }
  else some { s with gapAfterLand := s.sawLand || s.gapAfterLand }

def scanRow (width : Nat) (land : Nat → Bool) : Option RowScan :=
  (List.range width).foldlM (rowScanStep land) ⟨width, 0, false, false⟩

/-- One row against the land interval of the row above. -/
def coastRowStep (world : World) (previous : Nat × Nat) (y : Nat) : Option (Nat × Nat) := do
  let row ← scanRow world.width fun x => world.terrain (y * world.width + x) != fdTerrainWater
  if !row.sawLand then none
  else if 0 < y ∧ (row.stop < previous.1 ∨ previous.2 < row.start) then none
  else some (row.start, row.stop)

def fdValidateCoastLand (world : World) (landCount : Nat) : Bool :=
  let scaled := landCount * 100
  let total := world.tileCount
  if scaled < total * 55 ∨ total * 80 < scaled then false
  else ((List.range world.height).foldlM (coastRowStep world) (0, 0)).isSome

structure RiverScan where
  count : Nat
  endpoints : Nat
  outletCount : Nat
  outlet : Nat

def riverScanStep (world : World) (s : RiverScan) (index : Nat) : Option RiverScan :=
  if world.hasOverlay index fdTileOverlayRiver then
    let degree :=
      (fdNeighborCountWithOverlay world index fdTileOverlayRiver uint32Max uint32Max).1
    if degree ≠ 1 ∧ degree ≠ 2 then none
    else
      let s := { s with
        count := s.count + 1
        endpoints := if degree = 1 then s.endpoints + 1 else s.endpoints }
      if world.terrain index = fdTerrainWater ∨ world.terrain index = fdTerrainSettlement then none
      else if world.hasOverlay index fdTileRiverOutlet then
        if ¬ fdAdjacentTerrain world index fdTerrainWater ∨ degree ≠ 1 then none
        else some { s with outletCount := s.outletCount + 1, outlet := index }
      else some s
  else if world.hasOverlay index fdTileRiverOutlet then none
  else some s

/-- The walk up the river; `left` is `count - visited`. It ends on the source tile. -/
def riverWalk (world : World) (left previous current : Nat) : Option Nat :=
  let step := fdNeighborCountWithOverlay world current fdTileOverlayRiver previous uint32Max
  if step.1 = 0 then
    if left = 0 then some current else none
  else if step.1 ≠ 1 ∨
      (world.tile step.2).elevationCm ≤ (world.tile current).elevationCm then none
  else
    match left with
    | 0 => none
    | left + 1 => riverWalk world left current step.2

/-- The least Manhattan distance from a coordinate to a water tile. -/
def minimumWaterDistance (world : World) (x y : Nat) : Nat :=
  (List.range world.tileCount).foldl (fun minimum index =>
    if world.terrain index = fdTerrainWater then
      let distance := fdManhattan x y (index % world.width) (index / world.width)
      if distance < minimum then distance else minimum
    else minimum) uint32Max

/-- River tile count and outlet index of a valid river. -/
def fdValidateRiver (world : World) : Option (Nat × Nat) := do
  let s ← (List.range world.tileCount).foldlM (riverScanStep world) ⟨0, 0, 0, uint32Max⟩
  if s.count < 9 ∨ s.endpoints ≠ 2 ∨ s.outletCount ≠ 1 then none
  else
    let source ← riverWalk world (s.count - 1) uint32Max s.outlet
    if world.terrain source ≠ fdTerrainHills then none
    else if minimumWaterDistance world (source % world.width) (source / world.width) < 8 then none
    else some (s.count, s.outlet)

structure SettlementScan where
  settlementTiles : Nat
  inlandSeaDistance : Nat

def settlementScanStep (world : World) (inlandX inlandY : Nat) (s : SettlementScan)
    (index : Nat) : Option SettlementScan :=
  if world.terrain index ≠ fdTerrainSettlement ∧ (world.tile index).settlementId ≠ 0 then none
  else
    let s := if world.terrain index = fdTerrainSettlement then
      { s with settlementTiles := s.settlementTiles + 1 } else s
    if world.terrain index = fdTerrainWater then
      let distance := fdManhattan inlandX inlandY (index % world.width) (index / world.width)
      some (if distance < s.inlandSeaDistance then { s with inlandSeaDistance := distance } else s)
    else some s

def World.coastalIndex (world : World) : Nat :=
  (world.entity 1).y.toNat * world.width + (world.entity 1).x.toNat

def World.inlandIndex (world : World) : Nat :=
  (world.entity 2).y.toNat * world.width + (world.entity 2).x.toNat

/-- Both settlement coordinates are on the map. -/
def World.settlementsOnMap (world : World) : Bool :=
  decide ((world.entity 1).x.toNat < world.width) &&
  decide ((world.entity 1).y.toNat < world.height) &&
  decide ((world.entity 2).x.toNat < world.width) &&
  decide ((world.entity 2).y.toNat < world.height)

def fdValidateSettlements (world : World) (outlet : Nat) : Bool :=
  let coastal := world.entity 1
  let inland := world.entity 2
  if coastal.kind ≠ fdEntitySettlementCoastal ∨ inland.kind ≠ fdEntitySettlementInland ∨
      ¬ world.settlementsOnMap then false
  else if world.terrain world.coastalIndex ≠ fdTerrainSettlement ∨
      (world.tile world.coastalIndex).settlementId ≠ coastal.id ∨
      world.terrain world.inlandIndex ≠ fdTerrainSettlement ∨
      (world.tile world.inlandIndex).settlementId ≠ inland.id ∨
      ¬ fdAdjacentTerrain world world.coastalIndex fdTerrainWater ∨
      fdManhattan coastal.x.toNat coastal.y.toNat
        (outlet % world.width) (outlet / world.width) ≠ 1 ∨
      fdManhattan coastal.x.toNat coastal.y.toNat inland.x.toNat inland.y.toNat < 12 then false
  else
    match (List.range world.tileCount).foldlM
        (settlementScanStep world inland.x.toNat inland.y.toNat) ⟨0, uint32Max⟩ with
    | none => false
    | some s => s.settlementTiles == 2 && decide (4 ≤ s.inlandSeaDistance)

structure RoadScan where
  count : Nat
  endpoints : Nat
  start : Nat
  explicitCrossings : Nat
  riverIntersections : Nat

def roadScanStep (world : World) (s : RoadScan) (index : Nat) : Option RoadScan :=
  if world.hasOverlay index fdTileOverlayRoadCandidate then
    let degree :=
      (fdNeighborCountWithOverlay world index fdTileOverlayRoadCandidate uint32Max uint32Max).1
    if world.terrain index = fdTerrainWater then none
    else if degree ≠ 1 ∧ degree ≠ 2 then none
    else
      let s := { s with
        count := s.count + 1
        endpoints := if degree = 1 then s.endpoints + 1 else s.endpoints
        start := if degree = 1 ∧ s.start = uint32Max then index else s.start }
      let river := world.hasOverlay index fdTileOverlayRiver
      let crossing := world.hasOverlay index fdTileRoadCrossing
      if crossing ∧ ¬ river then none
      else some { s with
        explicitCrossings := if crossing then s.explicitCrossings + 1 else s.explicitCrossings
        riverIntersections := if river then s.riverIntersections + 1 else s.riverIntersections }
  else if world.hasOverlay index fdTileRoadCrossing then none
  else some s

/-- The walk along the road; it ends on the last tile with the number of river entries. -/
def roadWalk (world : World) (left previous current : Nat) (previousRiver : Bool)
    (crossingEntries : Nat) : Option (Nat × Nat) :=
  let step := fdNeighborCountWithOverlay world current fdTileOverlayRoadCandidate previous uint32Max
  if step.1 = 0 then
    if left = 0 then some (current, crossingEntries) else none
  else if step.1 ≠ 1 then none
  else
    let nextRiver := world.hasOverlay step.2 fdTileOverlayRiver
    let crossingEntries :=
      if nextRiver ∧ ¬ previousRiver then crossingEntries + 1 else crossingEntries
    match left with
    | 0 => none
    | left + 1 => roadWalk world left current step.2 nextRiver crossingEntries

/-- Road tile count and number of river crossings of a valid corridor. -/
def fdValidateRoad (world : World) : Option (Nat × Nat) := do
  if ¬ world.settlementsOnMap then none
  else
    let s ← (List.range world.tileCount).foldlM (roadScanStep world) ⟨0, 0, uint32Max, 0, 0⟩
    if s.count < 2 ∨ s.endpoints ≠ 2 ∨ 1 < s.explicitCrossings ∨ 1 < s.riverIntersections ∨
        ¬ world.hasOverlay world.coastalIndex fdTileOverlayRoadCandidate ∨
        ¬ world.hasOverlay world.inlandIndex fdTileOverlayRoadCandidate then none
    else
      let (current, crossingEntries) ← roadWalk world (s.count - 1) uint32Max s.start
        (world.hasOverlay s.start fdTileOverlayRiver) 0
      if ¬ ((s.start = world.coastalIndex ∧ current = world.inlandIndex) ∨
          (s.start = world.inlandIndex ∧ current = world.coastalIndex)) then none
      else if 1 < crossingEntries ∨ s.explicitCrossings ≠ s.riverIntersections ∨
          crossingEntries ≠ s.riverIntersections then none
      else some (s.count, crossingEntries)

def fdValidateOwnershipGraph (world : World) (riverCount roadCount outlet : Nat) : Bool :=
  let region := world.entity 0
  let coastal := world.entity 1
  let inland := world.entity 2
  let polity := world.entity 3
  let foreign0 := world.entity 4
  let foreign1 := world.entity 5
  let offMap := UInt32.ofNat uint32Max
  ((List.finRange 6).all fun index =>
    (world.entity index).id == fdMakeEntityId (UInt32.ofNat index.val + 1) &&
    decide ((world.entity index).name.length < fdMaxNameBytes)) &&
  world.settlementsOnMap &&
  (region.x == offMap && region.y == offMap && polity.x == offMap && polity.y == offMap &&
    foreign0.x == offMap && foreign0.y == offMap && foreign1.x == offMap && foreign1.y == offMap) &&
  (region.kind == fdEntityRegion && polity.kind == fdEntityPolityLocal &&
    foreign0.kind == fdEntityFactionForeign && foreign1.kind == fdEntityFactionForeign) &&
  (coastal.ownerId == polity.id && inland.ownerId == polity.id &&
    region.ownerId == polity.id && polity.ownerId == polity.id &&
    foreign0.ownerId == foreign0.id && foreign1.ownerId == foreign1.id) &&
  (region.regionId == region.id && coastal.regionId == region.id &&
    inland.regionId == region.id && polity.regionId == region.id &&
    foreign0.regionId == region.id && foreign1.regionId == region.id) &&
  (world.region.id == region.id && world.region.politicalOwnerId == polity.id &&
    world.region.settlementIds.get 0 == coastal.id &&
    world.region.settlementIds.get 1 == inland.id &&
    world.region.foreignFactionIds.get 0 == foreign0.id &&
    world.region.foreignFactionIds.get 1 == foreign1.id) &&
  (world.region.riverOutletTileId == fdTileIdFromIndex outlet &&
    world.region.roadStartTileId == fdTileIdFromIndex world.coastalIndex &&
    world.region.roadEndTileId == fdTileIdFromIndex world.inlandIndex &&
    world.region.riverTileCount.toNat == riverCount &&
    world.region.roadTileCount.toNat == roadCount)

abbrev fdInvariantBounds : UInt64 := 0x001
abbrev fdInvariantLandCoast : UInt64 := 0x002
abbrev fdInvariantTerrainCoverage : UInt64 := 0x004
abbrev fdInvariantHydrology : UInt64 := 0x008
abbrev fdInvariantSettlements : UInt64 := 0x010
abbrev fdInvariantRoadCorridor : UInt64 := 0x020
abbrev fdInvariantOwnership : UInt64 := 0x040
abbrev fdInvariantGraphTileAgreement : UInt64 := 0x080
abbrev fdInvariantObjectiveReachable : UInt64 := 0x100
abbrev fdInvariantAll : UInt64 := 0x1ff

structure ValidationReport where
  passedInvariants : UInt64
  failedInvariants : UInt64
  landTileCount : Nat
  waterTileCount : Nat
  riverTileCount : Nat
  roadTileCount : Nat
  roadRiverCrossings : Nat
  firstFailedTileIndex : Nat
deriving DecidableEq, Repr

/-- Locals of the pass over all tiles; `terrainCounts` is `terrain_counts[7]`. -/
structure TileScan where
  firstFailed : Nat
  terrainCounts : List Nat
  land : Nat
  water : Nat

/-- All overlay bits the format knows. -/
abbrev fdTileOverlayAll : UInt32 :=
  fdTileOverlayRiver ||| fdTileOverlayRoadCandidate ||| fdTileRiverOutlet ||| fdTileRoadCrossing

def tileScanStep (world : World) (s : TileScan) (index : Nat) : TileScan :=
  let tile := world.tile index
  let failed := if tile.overlays &&& ~~~ fdTileOverlayAll ≠ 0 then index else s.firstFailed
  let known := fdTerrainWater ≤ tile.terrain ∧ tile.terrain ≤ fdTerrainSettlement
  let counts := if known then s.terrainCounts.modify tile.terrain.toNat (· + 1) else s.terrainCounts
  -- only this rule keeps an index that an earlier rule or tile has set
  let failed := if ¬ known ∧ failed = uint32Max then index else failed
  let isWater := tile.terrain = fdTerrainWater
  let failed := if isWater then (if tile.elevationCm ≠ 0 then index else failed)
    else if tile.elevationCm ≤ 0 then index else failed
  let failed := if 5000 < tile.rainfallMm then index else failed
  let failed :=
    if tile.terrain = fdTerrainWetlands ∧ ¬ fdAdjacentTerrain world index fdTerrainWater ∧
        tile.overlays &&& fdTileOverlayRiver = 0 ∧
        (fdNeighborCountWithOverlay world index fdTileOverlayRiver uint32Max uint32Max).1 = 0
    then index else failed
  { firstFailed := failed
    terrainCounts := counts
    land := if isWater then s.land else s.land + 1
    water := if isWater then s.water + 1 else s.water }

def scanTiles (world : World) : TileScan :=
  (List.range world.tileCount).foldl (tileScanStep world) ⟨uint32Max, List.replicate 7 0, 0, 0⟩

def setIf (condition : Bool) (bits mask : UInt64) : UInt64 := if condition then bits ||| mask else bits

/-! The conditions of the report, one for each invariant that is decided on its own. -/

def World.boundsHold (world : World) : Prop :=
  fdMinWidth ≤ world.config.width ∧ world.config.width ≤ fdMaxWidth ∧
    fdMinHeight ≤ world.config.height ∧ world.config.height ≤ fdMaxHeight ∧
    world.tileCount = world.width * world.height ∧ world.tileCount ≤ fdMaxTiles

instance (world : World) : Decidable world.boundsHold := by
  unfold World.boundsHold
  infer_instance

def World.landCoastHolds (world : World) : Bool :=
  (scanTiles world).firstFailed == uint32Max && fdValidateCoastLand world (scanTiles world).land

def TileScan.count (s : TileScan) (terrain : UInt32) : Nat := s.terrainCounts.getD terrain.toNat 0

def TileScan.coverageHolds (s : TileScan) : Prop :=
  0 < s.count fdTerrainWater ∧ 0 < s.count fdTerrainGrassland ∧
    0 < s.count fdTerrainForest ∧ 0 < s.count fdTerrainHills ∧ 0 < s.count fdTerrainWetlands ∧
    s.count fdTerrainSettlement = 2

instance (s : TileScan) : Decidable s.coverageHolds := by
  unfold TileScan.coverageHolds
  infer_instance

/-- `river_count` and `outlet` after the river check. -/
def World.riverFound (world : World) : Nat × Nat := (fdValidateRiver world).getD (0, uint32Max)

/-- `road_count` and the crossings after the road check. -/
def World.roadFound (world : World) : Nat × Nat := (fdValidateRoad world).getD (0, 0)

def World.hydrologyHolds (world : World) : Bool :=
  (fdValidateRiver world).isSome && world.riverTileCount.toNat == world.riverFound.1

def World.settlementsHold (world : World) : Bool :=
  world.riverFound.2 != uint32Max && fdValidateSettlements world world.riverFound.2

def World.corridorHolds (world : World) : Bool :=
  (fdValidateRoad world).isSome && world.roadTileCount.toNat == world.roadFound.1

def World.ownershipHolds (world : World) : Bool :=
  world.riverFound.2 != uint32Max &&
    fdValidateOwnershipGraph world world.riverFound.1 world.roadFound.1 world.riverFound.2

/-- `report->passed_invariants` before the land count is compared. -/
def World.passedInvariants (world : World) : UInt64 :=
  let passed := setIf world.boundsHold 0 fdInvariantBounds
  let passed := setIf world.landCoastHolds passed fdInvariantLandCoast
  let passed := setIf (scanTiles world).coverageHolds passed fdInvariantTerrainCoverage
  let passed := setIf world.hydrologyHolds passed fdInvariantHydrology
  let passed := setIf world.settlementsHold passed fdInvariantSettlements
  let passed := setIf world.corridorHolds (setIf world.corridorHolds passed fdInvariantRoadCorridor)
    fdInvariantObjectiveReachable
  setIf world.ownershipHolds (setIf world.ownershipHolds passed fdInvariantOwnership)
    fdInvariantGraphTileAgreement

/-- The report of `fd_world_validate_internal`; the call succeeds when nothing failed. -/
def fdWorldValidateInternal (world : World) : ValidationReport :=
  let s := scanTiles world
  let passed := world.passedInvariants
  let failed := fdInvariantAll &&& ~~~ passed
  let stale := world.landTileCount.toNat ≠ s.land
  { passedInvariants := if stale then passed &&& ~~~ fdInvariantLandCoast else passed
    failedInvariants := if stale then failed ||| fdInvariantLandCoast else failed
    landTileCount := s.land
    waterTileCount := s.water
    riverTileCount := world.riverFound.1
    roadTileCount := world.roadFound.1
    roadRiverCrossings := world.roadFound.2
    firstFailedTileIndex := s.firstFailed }

/-- `FD_OK`, or the diagnostic of a failed validation. -/
def ValidationReport.result (report : ValidationReport) : Except Fail Unit :=
  if report.failedInvariants ≠ 0 then
    .error (fdDiagSet fdErrState fdFieldNone (UInt32.ofNat report.firstFailedTileIndex)
      "world invariant validation failed")
  else .ok ()

/-- The public call; the report is filled also when the world fails. -/
def fdWorldValidate (world : World) (out : StructHeader) :
    Except Fail Unit × Option ValidationReport :=
  if ¬ fdOutputStructValid out sizeofFdValidationReport then
    (.error (fdDiagSet fdErrInvalidSize fdFieldStructSize 0 "invalid validation report output"),
      none)
  else ((fdWorldValidateInternal world).result, some (fdWorldValidateInternal world))

/-- The world passes all nine invariants. -/
def World.Valid (world : World) : Prop := (fdWorldValidateInternal world).failedInvariants = 0

instance (world : World) : Decidable world.Valid :=
  inferInstanceAs (Decidable ((fdWorldValidateInternal world).failedInvariants = 0))

end FrontierDirectorate
