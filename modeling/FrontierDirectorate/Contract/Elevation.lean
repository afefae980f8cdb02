import Mathlib
import FrontierDirectorate.Core.ElevationFields

/-!
# The elevation fields

Over every map of an accepted size and every lattice of draws the elevation fields are
computed inside their arrays and words.
-/
namespace FrontierDirectorate
open CheckedWords

section fields

variable {world : World} {grids : Octave → List UInt32}

/-- The octaves one after the other: each of them finds the map it needs. -/
theorem raiseOctaves_eq {xs : List Octave} (hxs : ∀ octave ∈ xs, octave ∈ octaves) {world : World}
    (hworld : Sized world) (hgrids : Latticed world grids) {bound : Nat}
    (hlow : ∀ tile ∈ world.tiles, Low bound tile)
    (hbound : bound + (xs.map Octave.most).sum ≤ 100000) :
    xs.foldlM (fun tiles octave => raiseTiles world.config.width world.config.height octave
        (grids octave) tiles) world.tiles =
      some (xs.foldl (fun world octave => raiseLand octave (grids octave) world) world).tiles ∧
    ∀ tile ∈ (xs.foldl (fun world octave => raiseLand octave (grids octave) world) world).tiles,
      Low (bound + (xs.map Octave.most).sum) tile := by
  induction xs generalizing world bound with
  | nil => exact ⟨rfl, hlow⟩
  | cons octave xs ih =>
      have hoctave := hxs octave List.mem_cons_self
      rw [List.map_cons, List.sum_cons, ← Nat.add_assoc] at hbound ⊢
      have hraise := raiseTiles_eq hworld hoctave (hgrids octave hoctave) (by omega) hlow
      obtain ⟨hrest, hrestLow⟩ := ih (fun o ho => hxs o (List.mem_cons_of_mem octave ho))
        (sized_raiseLand hworld) (fun o ho => (hgrids o ho).raiseLand octave (grids octave))
        (low_raiseLand hworld hoctave (hgrids octave hoctave) hlow) hbound
      refine ⟨?_, hrestLow⟩
      rw [List.foldlM_cons, hraise]
      exact hrest

theorem elevationFields_eq (hworld : Sized world) (hbase : Based world)
    (hgrids : Latticed world grids) :
    elevationFields world.config.width world.config.height grids world.tiles =
      some (fieldsOver grids world).tiles := by
  obtain ⟨hraise, hlow⟩ := raiseOctaves_eq (fun o ho => ho) hworld hgrids (hbase.low hworld)
    (by decide)
  unfold elevationFields
  rw [hraise]
  exact rainTiles_eq (by decide) hlow

/-- The elevation fields read the lattice inside its array and interpolate between their corners,
and the whole computation ends without leaving an array or a word: it agrees with the generator,
raises land by at most 1022 cm, keeps its rain between 800 and 2400 mm and leaves water alone. -/
theorem elevation_fields_in_bounds (hworld : Sized world) (hbase : Based world)
    (hgrids : Latticed world grids) :
    (∀ octave ∈ octaves, ∃ gridWidth,
        gridExtent world.config.width (UInt32.ofNat octave.scale) = some gridWidth ∧
        ∀ x y : UInt32, x < world.config.width → y < world.config.height → ∃ corners value,
          gridCorners (UInt32.ofNat octave.scale) gridWidth (grids octave) x y = some corners ∧
          gridValue (UInt32.ofNat octave.scale) gridWidth (grids octave) x y = some value ∧
          Between corners value.toNat) ∧
      ∃ tiles, elevationFields world.config.width world.config.height grids world.tiles =
          some tiles ∧ tiles = (fieldsOver grids world).tiles ∧
        ∀ (i : Nat) (tile : Tile), world.tiles[i]? = some tile →
          ∃ tile', tiles[i]? = some tile' ∧ FieldTile tile tile' := by
  constructor
  · intro octave hoctave
    obtain ⟨gridWidth, hextent, hgridWidth⟩ := gridWidth_word hworld hoctave
    refine ⟨gridWidth, hextent, fun x y hx hy => ?_⟩
    obtain ⟨corners, value, hcorners, hvalue, -, -, hbetween⟩ := gridValue_eq hworld hoctave
      (hgrids octave hoctave) hgridWidth (UInt32.lt_iff_toNat_lt.mp hx)
      (UInt32.lt_iff_toNat_lt.mp hy)
    exact ⟨corners, value, hcorners, hvalue, hbetween⟩
  · exact ⟨_, elevationFields_eq hworld hbase hgrids, rfl,
      fun i tile htile => fieldsOver_tile hworld hbase hgrids htile⟩

/-- The tiles of a map of the least width with its sea in the west. -/
def coastTiles (count : Nat) : List Tile :=
  (List.range count).map fun i => coastTile true 32 9 (i % 32)

theorem coastTiles_length (count : Nat) : (coastTiles count).length = count := by
  rw [coastTiles, List.length_map, List.length_range]

theorem coastTiles_land {count : Nat} {tile : Tile} (htile : tile ∈ coastTiles count)
    (hland : tile.terrain ≠ fdTerrainWater) :
    ∃ distance, distance < 32 ∧ tile.elevationCm = Int32.ofNat (100 + distance * 100) := by
  obtain ⟨i, -, rfl⟩ := List.mem_map.mp htile
  obtain ⟨distance, hdistance, heq⟩ := coastTile_land (Nat.mod_lt i (by decide)) hland
  exact ⟨distance, hdistance, congrArg Tile.elevationCm heq⟩

/-- A map of the least size. -/
def mapOf (tiles : List Tile) : World :=
  { emptyWorld ⟨0, 0, 32, 16, 1, 1, 1, 1, 1, 1, 0, List.Vector.replicate 8 0⟩ 0 [] 0 with
    tiles := tiles }

theorem mapOf_sized {tiles : List Tile} (h : tiles.length = 512) : Sized (mapOf tiles) where
  width := ⟨Nat.le_refl 32, (by decide : 32 ≤ 256)⟩
  height := ⟨Nat.le_refl 16, (by decide : 16 ≤ 128)⟩
  tiles := h

theorem mapOf_based {count : Nat} : Based (mapOf (coastTiles count)) :=
  fun _ htile hland => coastTiles_land htile hland

/-- Lattices of one height. -/
def flatGrids (world : World) (octave : Octave) : List UInt32 :=
  List.replicate (octave.gridWidth world * octave.gridHeight world) 1023

theorem flatGrids_latticed (world : World) : Latticed world (flatGrids world) := fun octave _ =>
  ⟨List.length_replicate, fun value hvalue => by
    rw [List.eq_of_mem_replicate hvalue]
    decide⟩

theorem elevation_fields_in_bounds_coast : ∃ world grids,
    (∀ octave ∈ octaves, ∃ gridWidth,
        gridExtent world.config.width (UInt32.ofNat octave.scale) = some gridWidth ∧
        ∀ x y : UInt32, x < world.config.width → y < world.config.height → ∃ corners value,
          gridCorners (UInt32.ofNat octave.scale) gridWidth (grids octave) x y = some corners ∧
          gridValue (UInt32.ofNat octave.scale) gridWidth (grids octave) x y = some value ∧
          Between corners value.toNat) ∧
      ∃ tiles, elevationFields world.config.width world.config.height grids world.tiles =
          some tiles ∧ tiles = (fieldsOver grids world).tiles ∧
        ∀ (i : Nat) (tile : Tile), world.tiles[i]? = some tile →
          ∃ tile', tiles[i]? = some tile' ∧ FieldTile tile tile' :=
  ⟨mapOf (coastTiles 512), flatGrids _, elevation_fields_in_bounds
    (mapOf_sized (coastTiles_length 512)) mapOf_based (flatGrids_latticed _)⟩

end fields

end FrontierDirectorate
