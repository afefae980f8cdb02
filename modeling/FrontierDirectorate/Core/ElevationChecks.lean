import Mathlib
import FrontierDirectorate.Core.Terrain
import FrontierDirectorate.Lib.CheckedWords

/-!
# The elevation fields in machine words

`fd_apply_elevation_fields` word by word. A read outside an array, a wrapping sum or
product and a conversion that changes its value have no result.
-/
namespace FrontierDirectorate
open CheckedWords

/-- The number of lattice cells along an edge of the map. -/
def gridExtent (size scale : UInt32) : Option UInt32 := do
  let rounded ← subWord (← addWord size scale) 1
  addWord (← divWord rounded scale) 1

/-- `grid[row * grid_width + column]`, and the cell after it for `next = 1`. -/
def gridCell (grid : List UInt32) (gridWidth row column next : UInt32) : Option UInt64 := do
  let index ← addWord (← addWord (← mulWord row gridWidth) column) next
  return (← grid[index.toNat]?).toUInt64

/-- The value `d` steps of `scale` on the way from `a` to `b`. -/
def interpolate (scale d : UInt32) (a b : UInt64) : Option UInt64 := do
  let near ← mulLong a (← subWord scale d).toUInt64
  let far ← mulLong b d.toUInt64
  divLong (← addLong near far) scale.toUInt64

/-- The four lattice cells around a tile: two of the upper row, two of the lower one. -/
def gridCorners (scale gridWidth : UInt32) (grid : List UInt32) (x y : UInt32) :
    Option (Vector UInt64 4) := do
  let y0 ← divWord y scale
  let x0 ← divWord x scale
  let y1 ← addWord y0 1
  return #v[← gridCell grid gridWidth y0 x0 0, ← gridCell grid gridWidth y0 x0 1,
    ← gridCell grid gridWidth y1 x0 0, ← gridCell grid gridWidth y1 x0 1]

/-- The interpolated value at a tile. -/
def gridValue (scale gridWidth : UInt32) (grid : List UInt32) (x y : UInt32) : Option UInt64 := do
  let corners ← gridCorners scale gridWidth grid x y
  let dx ← modWord x scale
  let dy ← modWord y scale
  let top ← interpolate scale dx corners[0] corners[1]
  let bottom ← interpolate scale dx corners[2] corners[3]
  interpolate scale dy top bottom

/-- The lattice cell of a row and a column. -/
def latticeCell (gridWidth : Nat) (grid : List UInt32) (row column : Nat) : Nat :=
  (grid.getD (row * gridWidth + column) 0).toNat

/-- The words of a tile's four lattice cells. -/
structure Corners (octave : Octave) (world : World) (grid : List UInt32) (x y : Nat)
    (corners : Vector UInt64 4) : Prop where
  small : ∀ i (h : i < 4), corners[i].toNat < 1024
  topLeft : corners[0].toNat = latticeCell (octave.gridWidth world) grid (y / octave.scale)
    (x / octave.scale)
  topRight : corners[1].toNat = latticeCell (octave.gridWidth world) grid (y / octave.scale)
    (x / octave.scale + 1)
  bottomLeft : corners[2].toNat = latticeCell (octave.gridWidth world) grid (y / octave.scale + 1)
    (x / octave.scale)
  bottomRight : corners[3].toNat = latticeCell (octave.gridWidth world) grid
    (y / octave.scale + 1) (x / octave.scale + 1)

/-- An interpolated value lies between its corners. -/
structure Between (corners : Vector UInt64 4) (value : Nat) : Prop where
  least : min (min corners[0].toNat corners[1].toNat) (min corners[2].toNat corners[3].toNat) ≤ value
  greatest : value ≤
    max (max corners[0].toNat corners[1].toNat) (max corners[2].toNat corners[3].toNat)

/-- One octave on one tile. -/
def raiseTile (octave : Octave) (gridWidth : UInt32) (grid : List UInt32) (x y : UInt32)
    (tile : Tile) : Option Tile :=
  if tile.terrain = fdTerrainWater then some tile
  else do
    let interpolated ← gridValue (UInt32.ofNat octave.scale) gridWidth grid x y
    let addition ← narrow (← divLong (← mulLong interpolated (UInt64.ofNat octave.weight)) 7)
    return { tile with elevationCm := ← addSigned tile.elevationCm (← signed addition) }

/-- One octave on all tiles. -/
def raiseTiles (width height : UInt32) (octave : Octave) (grid : List UInt32)
    (tiles : List Tile) : Option (List Tile) := do
  let gridWidth ← gridExtent width (UInt32.ofNat octave.scale)
  (List.range height.toNat).foldlM (fun tiles y =>
    (List.range width.toNat).foldlM (fun tiles x => do
      let index ← addWord (← mulWord (UInt32.ofNat y) width) (UInt32.ofNat x)
      updateAt (raiseTile octave gridWidth grid (UInt32.ofNat x) (UInt32.ofNat y)) index.toNat
        tiles) tiles) tiles

/-- The rainfall of one tile. -/
def rainTile (tile : Tile) : Option Tile :=
  if tile.terrain = fdTerrainWater then some tile
  else do
    let elevation ← unsigned tile.elevationCm
    let wet ← narrow (← divLong (← mulLong elevation.toUInt64 1600) 5000)
    let rainfall ← addWord 800 wet
    return { tile with rainfallMm := if 2400 < rainfall then 2400 else rainfall }

/-- The three octaves over their lattices, then the rainfall. -/
def elevationFields (width height : UInt32) (grids : Octave → List UInt32) (tiles : List Tile) :
    Option (List Tile) := do
  let raised ← octaves.foldlM (fun tiles octave =>
    raiseTiles width height octave (grids octave) tiles) tiles
  (List.range raised.length).foldlM (fun tiles index => updateAt rainTile index tiles) raised

end FrontierDirectorate
