import Mathlib
import FrontierDirectorate.Core.Context
import FrontierDirectorate.Core.Rng
import FrontierDirectorate.Core.Validate
import FrontierDirectorate.Lib.Checks

/-!
# Terrain of a candidate

The stages of `fd_generate.c` that lay the coast, raise the land, carve the river
and assign the biomes. A stage that gives up hands back the world as it left it.
-/
namespace FrontierDirectorate
open Checks

/-- A stage that gave up: the world it leaves and its result. -/
structure Halted where
  world : World
  result : FdResult

/-- A draw made while `world` is being built. -/
def drawIn (world : World) (draw : Except FdResult UInt32) : Except Halted UInt32 :=
  match draw with
  | .error result => .error ⟨world, result⟩
  | .ok value => .ok value

def fdCoastX (westWater : Bool) (width waterWidth : Nat) : Nat :=
  if westWater then waterWidth else width - waterWidth - 1

def World.baseWaterWidth (world : World) : Nat := world.width * 30 / 100

def World.coastAmplitude (world : World) : Nat :=
  let amplitude := world.width / 32
  if amplitude = 0 then 1 else amplitude

/-- What an attempt draws before it touches the tiles. -/
structure CandidatePlan where
  westWater : Bool
  outletY : Nat
  sourceY : Nat
  tieChoice : Nat
deriving DecidableEq, Repr

def CandidatePlan.coastalY (plan : CandidatePlan) : Nat := plan.outletY + 1

def planOutletY (height offset : Nat) : Nat :=
  let outletY := 2 + offset
  if height ≤ outletY + 2 then height / 3 else outletY

def planSourceY (height outletY choice : Nat) : Nat :=
  let sourceY := outletY + choice
  let sourceY := if outletY + 1 ≤ sourceY then sourceY + 1 else sourceY
  if height ≤ sourceY + 2 then outletY else sourceY

def outletYRange (height : Nat) : Nat := if height / 3 < 3 then 3 else height / 3

def drawPlan (draws : Draws) (world : World) (attempt : UInt64) : Except Halted CandidatePlan := do
  let facing ← drawIn world
    (draws.bounded fdRngDomainCoast 0 attempt 0 fdRngSiteCoastFacing 2)
  let outletYOffset ← drawIn world
    (draws.bounded fdRngDomainSettlementPlacement 0 attempt 0 fdRngSiteSettlementRow
      (UInt32.ofNat (outletYRange world.height)))
  let outletY := planOutletY world.height outletYOffset.toNat
  let sourceYChoice ← drawIn world
    (draws.bounded fdRngDomainRiverSource 0 attempt 0 fdRngSiteRiverSourceRow 3)
  let tieChoice ← drawIn world
    (draws.bounded fdRngDomainRiverTieBreak 0 attempt 0 fdRngSiteRiverTie 2)
  return {
    westWater := facing == 0
    outletY := outletY
    sourceY := planSourceY world.height outletY sourceYChoice.toNat
    tieChoice := tieChoice.toNat }

/-- The tiles and the counters after `memset`. -/
def World.cleared (world : World) : World :=
  { world with
    tiles := List.replicate world.tileCount Tile.zero
    landTileCount := 0
    riverRaisedTileCount := 0
    riverMinCarveCm := UInt32.ofNat uint32Max }

/-- `offset_value - amplitude` added to the base width. -/
def offsetWaterWidth (base amplitude offset : Nat) : Nat :=
  if offset < amplitude then base - (amplitude - offset) else base + (offset - amplitude)

/-- The width of the water on row `y`; the rows of the outlet and of the harbour are straight. -/
def rowWaterWidth (draws : Draws) (world : World) (plan : CandidatePlan) (attempt : UInt64)
    (constructiveFallback : Bool) (y : Nat) : Except Halted Nat := do
  let base := world.baseWaterWidth
  let amplitude := world.coastAmplitude
  if y = plan.outletY ∨ y = plan.coastalY then return base
  else if constructiveFallback then return offsetWaterWidth base amplitude (y % (amplitude * 2 + 1))
  else
    let offset ← drawIn world
      (draws.bounded fdRngDomainCoast (UInt64.ofNat y) attempt 0 fdRngSiteCoastRowOffset
        (UInt32.ofNat (amplitude * 2 + 1)))
    return offsetWaterWidth base amplitude offset.toNat

def coastWater (westWater : Bool) (width waterWidth x : Nat) : Bool :=
  if westWater then decide (x < waterWidth) else decide (width - waterWidth ≤ x)

def coastTile (westWater : Bool) (width waterWidth x : Nat) : Tile :=
  if coastWater westWater width waterWidth x then
    { Tile.zero with terrain := fdTerrainWater, elevationCm := 0, rainfallMm := 1400 }
  else
    let coast := fdCoastX westWater width waterWidth
    let distance := if coast < x then x - coast else coast - x
    { Tile.zero with
      terrain := fdTerrainGrassland
      elevationCm := Int32.ofNat (100 + distance * 100) }

def layCoastTile (westWater : Bool) (waterWidth y : Nat) (world : World) (x : Nat) : World :=
  let tile := coastTile westWater world.width waterWidth x
  { world.modifyTile (y * world.width + x) (fun _ => tile) with
    landTileCount := if coastWater westWater world.width waterWidth x then world.landTileCount
      else world.landTileCount + 1 }

def layCoastRow (draws : Draws) (plan : CandidatePlan) (attempt : UInt64)
    (constructiveFallback : Bool) (world : World) (y : Nat) : Except Halted World := do
  let waterWidth ← rowWaterWidth draws world plan attempt constructiveFallback y
  return (List.range world.width).foldl (layCoastTile plan.westWater waterWidth y) world

def layCoast (draws : Draws) (plan : CandidatePlan) (attempt : UInt64)
    (constructiveFallback : Bool) (world : World) : Except Halted World :=
  forEach (List.range world.height) (layCoastRow draws plan attempt constructiveFallback)
    world.cleared

/-- One layer of the lattice noise. -/
structure Octave where
  index : UInt64
  scale : Nat
  weight : Nat

def octaves : List Octave := [⟨0, 16, 1⟩, ⟨1, 8, 2⟩, ⟨2, 4, 4⟩]

def Octave.gridWidth (octave : Octave) (world : World) : Nat :=
  (world.width + octave.scale - 1) / octave.scale + 1

def Octave.gridHeight (octave : Octave) (world : World) : Nat :=
  (world.height + octave.scale - 1) / octave.scale + 1

/-- The grid of an octave, row by row. -/
def drawLattice (draws : Draws) (world : World) (attempt : UInt64) (octave : Octave) :
    Except Halted (List UInt32) :=
  let gridWidth := octave.gridWidth world
  (List.range (gridWidth * octave.gridHeight world)).mapM fun cell =>
    let subject := octave.index <<< 56 ||| UInt64.ofNat (cell / gridWidth) <<< 28 |||
      UInt64.ofNat (cell % gridWidth)
    drawIn world
      (draws.bounded fdRngDomainElevationLattice subject attempt 0 fdRngSiteElevationTile 1024)

/-- Bilinear interpolation, truncating after each direction. -/
def latticeAddition (octave : Octave) (gridWidth : Nat) (grid : List UInt32) (x y : Nat) : Nat :=
  let scale := octave.scale
  let cell := fun row column => (grid.getD (row * gridWidth + column) 0).toNat
  let x0 := x / scale
  let y0 := y / scale
  let dx := x % scale
  let dy := y % scale
  let top := (cell y0 x0 * (scale - dx) + cell y0 (x0 + 1) * dx) / scale
  let bottom := (cell (y0 + 1) x0 * (scale - dx) + cell (y0 + 1) (x0 + 1) * dx) / scale
  let interpolated := (top * (scale - dy) + bottom * dy) / scale
  interpolated * octave.weight / 7

def raiseLand (octave : Octave) (grid : List UInt32) (world : World) : World :=
  { world with tiles := world.tiles.mapIdx fun index tile =>
      if tile.terrain = fdTerrainWater then tile
      else
        let addition := latticeAddition octave (octave.gridWidth world) grid
          (index % world.width) (index / world.width)
        { tile with elevationCm := tile.elevationCm + Int32.ofNat addition } }

def rainfallOf (elevationCm : Int32) : UInt32 :=
  let rainfall := 800 + elevationCm.toUInt32.toNat * 1600 / 5000
  if 2400 < rainfall then 2400 else UInt32.ofNat rainfall

def waterLand (world : World) : World :=
  { world with tiles := world.tiles.map fun tile =>
      if tile.terrain = fdTerrainWater then tile
      else { tile with rainfallMm := rainfallOf tile.elevationCm } }

def elevationOctave (context : FdContext) (draws : Draws) (attempt : UInt64) (world : World)
    (octave : Octave) : StateM Ledger (Except Halted World) := do
  let gridBytes := UInt64.ofNat (octave.gridWidth world * octave.gridHeight world * 4)
  if !(← fdContextAlloc context gridBytes) then return .error ⟨world, fdErrOutOfMemory⟩
  let grid := drawLattice draws world attempt octave
  fdContextFree true gridBytes
  return grid.map fun grid => raiseLand octave grid world

/-- The next octave of a world that has not been given up. -/
def elevationNext (context : FdContext) (draws : Draws) (attempt : UInt64) :
    Except Halted World → Octave → StateM Ledger (Except Halted World)
  | .error halted, _ => return .error halted
  | .ok world, octave => elevationOctave context draws attempt world octave

def fdApplyElevationFields (context : FdContext) (draws : Draws) (attempt : UInt64)
    (world : World) : StateM Ledger (Except Halted World) := do
  let raised ← octaves.foldlM (elevationNext context draws attempt) (.ok world)
  return raised.map waterLand

/-- The river bit is set only on land at or above the wanted elevation. -/
def fdSetRiverTile (world : World) (index elevation : Nat) : Except Halted World :=
  let raised : Halted :=
    ⟨{ world with riverRaisedTileCount := world.riverRaisedTileCount + 1 }, fdErrGenerationExhausted⟩
  let tile := world.tile index
  if tile.terrain = fdTerrainWater ∨ tile.elevationCm < 0 then .error raised
  else
    let previous := tile.elevationCm.toUInt32.toNat
    if previous < elevation then .error raised
    else
      let carve := UInt32.ofNat (previous - elevation)
      .ok { world.modifyTile index (fun tile => { tile with
              overlays := tile.overlays ||| fdTileOverlayRiver
              terrain := fdTerrainGrassland
              elevationCm := Int32.ofNat elevation }) with
            riverMinCarveCm := if carve < world.riverMinCarveCm then carve
              else world.riverMinCarveCm }

/-- The coordinates a walk visits after `from` until it reaches `goal`. -/
def stepsTowards (start goal : Nat) : List Nat :=
  if start = goal then []
  else
    let next := if start < goal then start + 1 else start - 1
    next :: stepsTowards next goal
termination_by start - goal + (goal - start)
decreasing_by
  split <;> omega

/-- The cells of the river after its outlet: along the outlet row to the bend, along the bend to
the source row, and on to the source. -/
def riverCourse (outletX outletY bendX sourceX sourceY : Nat) : List (Nat × Nat) :=
  (stepsTowards outletX bendX).map (·, outletY) ++
  (stepsTowards outletY sourceY).map (bendX, ·) ++
  (stepsTowards bendX sourceX).map (·, sourceY)

/-- The world with its river, the outlet index and the tile count. -/
def fdConstructRiver (world : World) (westWater : Bool)
    (waterWidth outletY sourceY tieChoice : Nat) : Except Halted (World × Nat × Nat) := do
  let width := world.width
  let outletX := fdCoastX westWater width waterWidth
  let sourceX := if westWater then width - 2 else 1
  let bendX := (outletX + sourceX + tieChoice) / 2
  let outlet := outletY * width + outletX
  let world ← fdSetRiverTile world outlet 100
  let world := world.modifyTile outlet fun tile =>
    { tile with overlays := tile.overlays ||| fdTileRiverOutlet }
  let course := riverCourse outletX outletY bendX sourceX sourceY
  let world ← forEach (course.zipIdx 101)
    (fun world cell => fdSetRiverTile world (cell.1.2 * width + cell.1.1) cell.2) world
  let world := world.modifyTile (sourceY * width + sourceX) fun tile =>
    { tile with terrain := fdTerrainHills }
  return (world, outlet, course.length + 1)

/-- River tiles and the neighbours of water or river. -/
def fdWetlandEligible (world : World) (index : Nat) : Bool :=
  world.hasOverlay index fdTileOverlayRiver ||
    (world.neighbors index).any fun candidate =>
      world.terrain candidate == fdTerrainWater || world.hasOverlay candidate fdTileOverlayRiver

def biomeTerrain (config : WorldConfig) (eligible : Bool) (value : UInt32) : UInt32 :=
  if eligible ∧ value < config.wetlandDensityPpm then fdTerrainWetlands
  else if value < config.hillDensityPpm then fdTerrainHills
  else if value < config.hillDensityPpm + config.forestDensityPpm then fdTerrainForest
  else fdTerrainGrassland

def assignBiome (draws : Draws) (attempt : UInt64) (world : World) (index : Nat) :
    Except Halted World := do
  if world.terrain index = fdTerrainWater ∨ world.hasOverlay index fdTileOverlayRiver then
    return world
  else
    let value ← drawIn world
      (draws.bounded fdRngDomainBiomeAssignment (UInt64.ofNat index) attempt 0 fdRngSiteBiomeTile
        1000000)
    let terrain := biomeTerrain world.config (fdWetlandEligible world index) value
    return world.modifyTile index fun tile => { tile with terrain := terrain }

def assignBiomes (draws : Draws) (attempt : UInt64) (world : World) : Except Halted World :=
  forEach (List.range world.tileCount) (assignBiome draws attempt) world

def World.setTerrain (world : World) (index : Nat) (terrain : UInt32) : World :=
  world.modifyTile index fun tile => { tile with terrain := terrain }

/-- The column of the inland settlement. -/
def World.inlandX (world : World) (westWater : Bool) : Nat :=
  if westWater then world.width - 3 else 2

/-- The row of the inland settlement. -/
def World.inlandY (world : World) : Nat := world.height - 3

/-- The representatives only the final attempt may construct. -/
def patchRepresentatives (plan : CandidatePlan) (world : World) : World :=
  let width := world.width
  let coastalX := fdCoastX plan.westWater width world.baseWaterWidth
  let inlandX := world.inlandX plan.westWater
  let middleX := (coastalX + inlandX) / 2
  let row := world.inlandY * width
  let world := world.setTerrain (plan.coastalY * width + middleX) fdTerrainWetlands
  let world := world.setTerrain (row + if plan.westWater then inlandX - 1 else inlandX + 1)
    fdTerrainForest
  world.setTerrain (row + if plan.westWater then inlandX - 2 else inlandX + 2) fdTerrainGrassland

end FrontierDirectorate
