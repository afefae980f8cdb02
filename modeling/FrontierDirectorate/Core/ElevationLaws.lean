import Mathlib
import FrontierDirectorate.Core.ElevationChecks
import FrontierDirectorate.Core.Grid

/-!
# Bounds of the elevation fields

The interpolated values stay between their corners and inside the lattice, so the
checked computation ends and agrees with the numbers of the generator.
-/
namespace FrontierDirectorate
open CheckedWords

section mix

/-- The weighted mean of two numbers, rounded down. -/
def mix (scale d a b : Nat) : Nat := (a * (scale - d) + b * d) / scale

variable {scale d a b : Nat}

theorem min_le_mix (hpos : 0 < scale) (hd : d ≤ scale) : min a b ≤ mix scale d a b := by
  have hsplit : min a b * scale = min a b * (scale - d) + min a b * d := by
    rw [← Nat.mul_add, Nat.sub_add_cancel hd]
  rw [mix, Nat.le_div_iff_mul_le hpos, hsplit]
  exact Nat.add_le_add (Nat.mul_le_mul_right _ (min_le_left a b))
    (Nat.mul_le_mul_right _ (min_le_right a b))

theorem mix_le_max (hd : d ≤ scale) : mix scale d a b ≤ max a b := by
  have hsplit : max a b * scale = max a b * (scale - d) + max a b * d := by
    rw [← Nat.mul_add, Nat.sub_add_cancel hd]
  refine Nat.div_le_of_le_mul ?_
  rw [Nat.mul_comm scale, hsplit]
  exact Nat.add_le_add (Nat.mul_le_mul_right _ (le_max_left a b))
    (Nat.mul_le_mul_right _ (le_max_right a b))

end mix

/-- What `fd_rng_bounded` leaves in the lattice of an octave. -/
structure Lattice (octave : Octave) (world : World) (grid : List UInt32) : Prop where
  length : grid.length = octave.gridWidth world * octave.gridHeight world
  small : ∀ value ∈ grid, value.toNat < 1024

/-- The interpolated value at a tile. -/
def latticeValue (octave : Octave) (gridWidth : Nat) (grid : List UInt32) (x y : Nat) : Nat :=
  let cell := latticeCell gridWidth grid
  mix octave.scale (y % octave.scale)
    (mix octave.scale (x % octave.scale) (cell (y / octave.scale) (x / octave.scale))
      (cell (y / octave.scale) (x / octave.scale + 1)))
    (mix octave.scale (x % octave.scale) (cell (y / octave.scale + 1) (x / octave.scale))
      (cell (y / octave.scale + 1) (x / octave.scale + 1)))

theorem latticeAddition_eq (octave : Octave) (gridWidth : Nat) (grid : List UInt32) (x y : Nat) :
    latticeAddition octave gridWidth grid x y =
      latticeValue octave gridWidth grid x y * octave.weight / 7 := rfl

section words

variable {scale : UInt32}

theorem gridExtent_eq (size : UInt32) (hsize : size.toNat ≤ 256) (hpos : 0 < scale.toNat)
    (hscale : scale.toNat ≤ 16) : ∃ extent, gridExtent size scale = some extent ∧
      extent.toNat = (size.toNat + scale.toNat - 1) / scale.toNat + 1 := by
  obtain ⟨sum, hsum, hsum'⟩ := addWord_of_lt (a := size) (b := scale) (by rw [UInt32.size]; omega)
  obtain ⟨less, hless, hless'⟩ := subWord_of_le (a := sum) (b := 1) (by
    rw [hsum', UInt32.toNat_one]
    omega)
  obtain ⟨cells, hcells, hcells'⟩ := divWord_of_pos (a := less) hpos
  rw [hsum', UInt32.toNat_one] at hless'
  rw [hless'] at hcells'
  have hle : cells.toNat ≤ 272 := by
    rw [hcells']
    exact (Nat.div_le_self _ _).trans (by omega)
  obtain ⟨extent, hextent, hextent'⟩ := addWord_of_lt (a := cells) (b := 1) (by
    rw [UInt32.size, UInt32.toNat_one]
    omega)
  refine ⟨extent, ?_, ?_⟩
  · simp only [gridExtent, hsum, hless, hcells, hextent, Option.bind_eq_bind, Option.bind_some]
  · rw [hextent', hcells', UInt32.toNat_one]

theorem interpolate_eq {d : UInt32} {a b : UInt64} (hpos : 0 < scale.toNat)
    (hscale : scale.toNat ≤ 16) (hd : d.toNat ≤ scale.toNat) (ha : a.toNat < 1024)
    (hb : b.toNat < 1024) : ∃ value, interpolate scale d a b = some value ∧
      value.toNat = mix scale.toNat d.toNat a.toNat b.toNat ∧ value.toNat < 1024 := by
  obtain ⟨rest, hrest, hrest'⟩ := subWord_of_le hd
  have hnearLt : a.toNat * rest.toNat ≤ 1023 * 16 := Nat.mul_le_mul (by omega) (by omega)
  have hfarLt : b.toNat * d.toNat ≤ 1023 * 16 := Nat.mul_le_mul (by omega) (by omega)
  obtain ⟨near, hnear, hnear'⟩ := mulLong_of_lt (a := a) (b := rest.toUInt64) (by
    rw [UInt32.toNat_toUInt64, UInt64.size]
    omega)
  obtain ⟨far, hfar, hfar'⟩ := mulLong_of_lt (a := b) (b := d.toUInt64) (by
    rw [UInt32.toNat_toUInt64, UInt64.size]
    omega)
  rw [UInt32.toNat_toUInt64] at hnear' hfar'
  obtain ⟨sum, hsum, hsum'⟩ := addLong_of_lt (a := near) (b := far) (by rw [UInt64.size]; omega)
  obtain ⟨value, hvalue, hvalue'⟩ := divLong_of_pos (a := sum) (b := scale.toUInt64) (by
    rw [UInt32.toNat_toUInt64]
    exact hpos)
  have hmix : value.toNat = mix scale.toNat d.toNat a.toNat b.toNat := by
    rw [hvalue', hsum', hnear', hfar', hrest', UInt32.toNat_toUInt64, mix]
  refine ⟨value, ?_, hmix, ?_⟩
  · simp only [interpolate, hrest, hnear, hfar, hsum, hvalue, Option.bind_eq_bind,
      Option.bind_some]
  · rw [hmix]
    exact (mix_le_max hd).trans_lt (max_lt ha hb)

/-- Reading a lattice cell. -/
theorem gridCell_eq {grid : List UInt32} {gridWidth row column next : UInt32}
    (hsmall : grid.length < UInt32.size) (hvalues : ∀ value ∈ grid, value.toNat < 1024)
    (hin : row.toNat * gridWidth.toNat + (column.toNat + next.toNat) < grid.length) :
    ∃ value, gridCell grid gridWidth row column next = some value ∧ value.toNat < 1024 ∧
      value.toNat = latticeCell gridWidth.toNat grid row.toNat (column.toNat + next.toNat) := by
  obtain ⟨base, hbase, hbase'⟩ := mulWord_of_lt (a := row) (b := gridWidth) (by omega)
  obtain ⟨first, hfirst, hfirst'⟩ := addWord_of_lt (a := base) (b := column) (by omega)
  obtain ⟨index, hindex, hindex'⟩ := addWord_of_lt (a := first) (b := next) (by omega)
  have hindexEq : index.toNat = row.toNat * gridWidth.toNat + (column.toNat + next.toNat) := by
    omega
  have hget := List.getElem?_eq_getElem (hindexEq.trans_lt hin)
  refine ⟨grid[index.toNat].toUInt64, ?_, ?_, ?_⟩
  · simp only [gridCell, hbase, hfirst, hindex, hget, Option.bind_eq_bind, Option.bind_some]
    rfl
  · rw [UInt32.toNat_toUInt64]
    exact hvalues _ (List.getElem_mem _)
  · rw [UInt32.toNat_toUInt64, latticeCell, ← hindexEq, List.getD_eq_getElem?_getD, hget,
      Option.getD_some]

end words

section octave

theorem octave_cases {octave : Octave} (h : octave ∈ octaves) :
    (0 < octave.scale ∧ octave.scale ≤ 16) ∧ 1 ≤ octave.weight ∧ octave.weight ≤ 4 := by
  simp only [octaves, List.mem_cons, List.not_mem_nil, or_false] at h
  obtain rfl | rfl | rfl := h
  · decide
  · decide
  · decide

/-- The next lattice row or column after a tile is still on the lattice. -/
theorem next_cell_lt {size scale i : Nat} (hpos : 0 < scale) (hi : i < size) :
    i / scale + 1 < (size + scale - 1) / scale + 1 := by
  have hround : size + scale - 1 = (size - 1) + scale := by omega
  have hle : i / scale ≤ (size - 1) / scale := Nat.div_le_div_right (by omega)
  rw [hround, Nat.add_div_right _ hpos]
  omega

variable {world : World} {octave : Octave} {grid : List UInt32}

/-- A map of the size generation accepts. -/
structure Sized (world : World) : Prop where
  width : 32 ≤ world.width ∧ world.width ≤ 256
  height : 16 ≤ world.height ∧ world.height ≤ 128
  tiles : world.tileCount = world.width * world.height

theorem scale_toNat (hoctave : octave ∈ octaves) : (UInt32.ofNat octave.scale).toNat = octave.scale := by
  obtain ⟨⟨-, hscale⟩, -⟩ := octave_cases hoctave
  exact UInt32.toNat_ofNat_of_lt' (by rw [UInt32.size]; omega)

theorem gridWidth_le (hworld : Sized world) (hoctave : octave ∈ octaves) :
    octave.gridWidth world ≤ 272 ∧ octave.gridHeight world ≤ 144 := by
  obtain ⟨⟨hpos, hscale⟩, -⟩ := octave_cases hoctave
  have hwidth := hworld.width
  have hheight := hworld.height
  constructor
  · exact Nat.succ_le_of_lt (Nat.lt_of_le_of_lt (Nat.div_le_self _ _) (by omega))
  · exact Nat.succ_le_of_lt (Nat.lt_of_le_of_lt (Nat.div_le_self _ _) (by omega))

theorem lattice_small (hworld : Sized world) (hoctave : octave ∈ octaves)
    (hgrid : Lattice octave world grid) : grid.length ≤ 272 * 144 := by
  obtain ⟨hw, hh⟩ := gridWidth_le hworld hoctave
  rw [hgrid.length]
  exact Nat.mul_le_mul hw hh

/-- The four cells around a tile are on the lattice. -/
theorem cell_in_lattice (hgrid : Lattice octave world grid) {row column : Nat}
    (hrow : row < octave.gridHeight world) (hcolumn : column < octave.gridWidth world) :
    row * octave.gridWidth world + column < grid.length := by
  rw [hgrid.length]
  exact index_lt hcolumn hrow

theorem gridCorners_eq (hworld : Sized world) (hoctave : octave ∈ octaves)
    (hgrid : Lattice octave world grid) {gridWidth x y : UInt32}
    (hgridWidth : gridWidth.toNat = octave.gridWidth world) (hx : x.toNat < world.width)
    (hy : y.toNat < world.height) :
    ∃ corners, gridCorners (UInt32.ofNat octave.scale) gridWidth grid x y = some corners ∧
      Corners octave world grid x.toNat y.toNat corners := by
  obtain ⟨⟨hpos, hscale⟩, -⟩ := octave_cases hoctave
  have hscaleEq := scale_toNat hoctave
  have hposWord : 0 < (UInt32.ofNat octave.scale).toNat := hscaleEq.symm ▸ hpos
  have hlength := lattice_small hworld hoctave hgrid
  have hsmall : grid.length < UInt32.size := hlength.trans_lt (by decide)
  have hcolumn := next_cell_lt hpos hx
  have hrow := next_cell_lt hpos hy
  obtain ⟨y0, hy0, hy0'⟩ := divWord_of_pos (a := y) hposWord
  obtain ⟨x0, hx0, hx0'⟩ := divWord_of_pos (a := x) hposWord
  rw [hscaleEq] at hy0' hx0'
  have hheight := (gridWidth_le hworld hoctave).2
  obtain ⟨y1, hy1, hy1'⟩ := addWord_of_lt (a := y0) (b := 1) (by
    rw [UInt32.size, UInt32.toNat_one, hy0']
    exact hrow.trans_le (hheight.trans (by decide)))
  rw [hy0', UInt32.toNat_one] at hy1'
  have hcell : ∀ row next : UInt32, row.toNat < octave.gridHeight world → next.toNat ≤ 1 →
      ∃ value, gridCell grid gridWidth row x0 next = some value ∧ value.toNat < 1024 ∧
        value.toNat = latticeCell (octave.gridWidth world) grid row.toNat
          (x.toNat / octave.scale + next.toNat) := by
    intro row next hrowLt hnext
    rw [← hgridWidth, ← hx0']
    refine gridCell_eq hsmall hgrid.small ?_
    rw [hgridWidth]
    exact cell_in_lattice hgrid hrowLt ((Nat.add_le_add_left hnext _).trans_lt (hx0' ▸ hcolumn))
  have hrow0 : y0.toNat < octave.gridHeight world := hy0' ▸ (Nat.lt_succ_self _).trans hrow
  have hrow1 : y1.toNat < octave.gridHeight world := hy1' ▸ hrow
  obtain ⟨a, ha, haLt, ha'⟩ := hcell y0 0 hrow0 (Nat.zero_le 1)
  obtain ⟨b, hb, hbLt, hb'⟩ := hcell y0 1 hrow0 (Nat.le_refl 1)
  obtain ⟨c, hc, hcLt, hc'⟩ := hcell y1 0 hrow1 (Nat.zero_le 1)
  obtain ⟨d, hd, hdLt, hd'⟩ := hcell y1 1 hrow1 (Nat.le_refl 1)
  rw [hy0'] at ha' hb'
  rw [hy1'] at hc' hd'
  refine ⟨#v[a, b, c, d], ?_, ?_, ha', hb', hc', hd'⟩
  · simp only [gridCorners, hy0, hx0, hy1, ha, hb, hc, hd, Option.bind_eq_bind, Option.bind_some]
    rfl
  · intro i hi
    match i, hi with
    | 0, _ => exact haLt
    | 1, _ => exact hbLt
    | 2, _ => exact hcLt
    | 3, _ => exact hdLt

theorem between_mix {scale dx dy : Nat} (hpos : 0 < scale) (hdx : dx ≤ scale) (hdy : dy ≤ scale)
    (corners : Vector UInt64 4) :
    Between corners (mix scale dy (mix scale dx corners[0].toNat corners[1].toNat)
      (mix scale dx corners[2].toNat corners[3].toNat)) where
  least := (min_le_min (min_le_mix hpos hdx) (min_le_mix hpos hdx)).trans (min_le_mix hpos hdy)
  greatest := (mix_le_max hdy).trans (max_le_max (mix_le_max hdx) (mix_le_max hdx))

theorem gridValue_eq (hworld : Sized world) (hoctave : octave ∈ octaves)
    (hgrid : Lattice octave world grid) {gridWidth x y : UInt32}
    (hgridWidth : gridWidth.toNat = octave.gridWidth world) (hx : x.toNat < world.width)
    (hy : y.toNat < world.height) :
    ∃ corners value, gridCorners (UInt32.ofNat octave.scale) gridWidth grid x y = some corners ∧
      gridValue (UInt32.ofNat octave.scale) gridWidth grid x y = some value ∧
      value.toNat = latticeValue octave (octave.gridWidth world) grid x.toNat y.toNat ∧
      value.toNat < 1024 ∧ Between corners value.toNat := by
  obtain ⟨⟨hpos, hscale⟩, -⟩ := octave_cases hoctave
  have hscaleEq := scale_toNat hoctave
  have hposWord : 0 < (UInt32.ofNat octave.scale).toNat := hscaleEq.symm ▸ hpos
  have hscaleWord : (UInt32.ofNat octave.scale).toNat ≤ 16 := hscaleEq.symm ▸ hscale
  obtain ⟨corners, hcorners, hcells⟩ := gridCorners_eq hworld hoctave hgrid hgridWidth hx hy
  obtain ⟨dx, hdx, hdx'⟩ := modWord_of_pos (a := x) hposWord
  obtain ⟨dy, hdy, hdy'⟩ := modWord_of_pos (a := y) hposWord
  have hdxLe : dx.toNat ≤ (UInt32.ofNat octave.scale).toNat :=
    hdx'.trans_le (Nat.mod_lt _ hposWord).le
  have hdyLe : dy.toNat ≤ (UInt32.ofNat octave.scale).toNat :=
    hdy'.trans_le (Nat.mod_lt _ hposWord).le
  obtain ⟨top, htop, htop', htopLt⟩ := interpolate_eq hposWord hscaleWord hdxLe
    (hcells.small 0 (by decide)) (hcells.small 1 (by decide))
  obtain ⟨bottom, hbottom, hbottom', hbottomLt⟩ := interpolate_eq hposWord hscaleWord hdxLe
    (hcells.small 2 (by decide)) (hcells.small 3 (by decide))
  obtain ⟨value, hvalue, hvalue', hvalueLt⟩ := interpolate_eq hposWord hscaleWord hdyLe htopLt
    hbottomLt
  rw [htop', hbottom'] at hvalue'
  refine ⟨corners, value, hcorners, ?_, ?_, hvalueLt, ?_⟩
  · simp only [gridValue, hcorners, hdx, hdy, htop, hbottom, Option.bind_eq_bind,
      Option.bind_some]
    exact hvalue
  · rw [hvalue', hdx', hdy', hscaleEq, hcells.topLeft, hcells.topRight, hcells.bottomLeft,
      hcells.bottomRight]
    rfl
  · rw [hvalue']
    exact between_mix hposWord hdxLe hdyLe corners

/-- The most an octave adds to a tile. -/
def Octave.most (octave : Octave) : Nat := 1023 * octave.weight / 7

/-- Land lies at a small height above the sea. -/
def Low (bound : Nat) (tile : Tile) : Prop :=
  tile.terrain ≠ fdTerrainWater → ∃ e, e ≤ bound ∧ tile.elevationCm = Int32.ofNat e

/-- A tile of the sea. -/
def seaTile : Tile := { Tile.zero with terrain := fdTerrainWater }

theorem low_sea (bound : Nat) : Low bound seaTile := fun hland => absurd rfl hland

/-- Land is raised, water stays. -/
def lifted (addition : Nat) (tile : Tile) : Tile :=
  if tile.terrain = fdTerrainWater then tile
  else { tile with elevationCm := tile.elevationCm + Int32.ofNat addition }

/-- One octave on one tile, as the generator has it. -/
def raised (octave : Octave) (gridWidth : Nat) (grid : List UInt32) (x y : Nat) : Tile → Tile :=
  lifted (latticeAddition octave gridWidth grid x y)

theorem raiseTile_eq (hworld : Sized world) (hoctave : octave ∈ octaves)
    (hgrid : Lattice octave world grid) {gridWidth x y : UInt32}
    (hgridWidth : gridWidth.toNat = octave.gridWidth world) (hx : x.toNat < world.width)
    (hy : y.toNat < world.height) {bound : Nat} (hbound : bound ≤ 100000) {tile : Tile}
    (htile : Low bound tile) :
    raiseTile octave gridWidth grid x y tile =
      some (raised octave (octave.gridWidth world) grid x.toNat y.toNat tile) ∧
      latticeAddition octave (octave.gridWidth world) grid x.toNat y.toNat ≤ octave.most := by
  obtain ⟨-, hweight, hweight'⟩ := octave_cases hoctave
  obtain ⟨-, value, -, hvalue, hvalue', hvalueLt, -⟩ := gridValue_eq hworld hoctave hgrid
    hgridWidth hx hy
  have hweightEq : (UInt64.ofNat octave.weight).toNat = octave.weight :=
    UInt64.toNat_ofNat_of_lt' (by rw [UInt64.size]; omega)
  have hmost : value.toNat * octave.weight / 7 ≤ octave.most :=
    Nat.div_le_div_right (Nat.mul_le_mul_right _ (Nat.le_of_lt_succ hvalueLt))
  have hsmall : octave.most ≤ 1023 * 4 / 7 :=
    Nat.div_le_div_right (Nat.mul_le_mul_left _ hweight')
  have hproduct : value.toNat * octave.weight ≤ 1023 * 4 :=
    Nat.mul_le_mul (Nat.le_of_lt_succ hvalueLt) hweight'
  obtain ⟨product, hprod, hprod'⟩ := mulLong_of_lt (a := value) (b := UInt64.ofNat octave.weight)
    (by rw [hweightEq, UInt64.size]; omega)
  rw [hweightEq] at hprod'
  obtain ⟨seventh, hseventh, hseventh'⟩ := divLong_of_pos (a := product) (b := 7) (by decide)
  rw [hprod', show (7 : UInt64).toNat = 7 from rfl] at hseventh'
  obtain ⟨addition, haddition, haddition'⟩ := narrow_of_lt (a := seventh) (by
    rw [UInt32.size, hseventh']
    omega)
  have hadd : addition.toNat = latticeAddition octave (octave.gridWidth world) grid x.toNat
      y.toNat := by
    rw [haddition', hseventh', hvalue', latticeAddition_eq]
  refine ⟨?_, ?_⟩
  · unfold raiseTile raised lifted
    by_cases hwater : tile.terrain = fdTerrainWater
    · rw [if_pos hwater, if_pos hwater]
    · obtain ⟨e, he, helevation⟩ := htile hwater
      rw [if_neg hwater, if_neg hwater]
      simp only [hvalue, hprod, hseventh, haddition, signed_of_lt (a := addition) (by omega),
        helevation, Option.bind_eq_bind, Option.bind_some]
      rw [addSigned_ofNat (by omega), hadd, Int32.ofNat_add]
      rfl
  · rw [← hadd, haddition', hseventh']
    exact hmost

theorem raiseLand_eq (octave : Octave) (grid : List UInt32) (world : World) :
    (raiseLand octave grid world).tiles = world.tiles.mapIdx fun index =>
      raised octave (octave.gridWidth world) grid (index % world.width) (index / world.width) := rfl

theorem gridWidth_word (hworld : Sized world) (hoctave : octave ∈ octaves) :
    ∃ gridWidth, gridExtent world.config.width (UInt32.ofNat octave.scale) = some gridWidth ∧
      gridWidth.toNat = octave.gridWidth world := by
  obtain ⟨⟨hpos, hscale⟩, -⟩ := octave_cases hoctave
  have hscaleEq := scale_toNat hoctave
  obtain ⟨gridWidth, hextent, hextent'⟩ := gridExtent_eq world.config.width
    hworld.width.2 (hscaleEq.symm ▸ hpos) (hscaleEq.symm ▸ hscale)
  rw [hscaleEq] at hextent'
  exact ⟨gridWidth, hextent, hextent'⟩

/-- One octave over the whole map. -/
theorem raiseTiles_eq (hworld : Sized world) (hoctave : octave ∈ octaves)
    (hgrid : Lattice octave world grid) {bound : Nat} (hbound : bound ≤ 100000)
    (hlow : ∀ tile ∈ world.tiles, Low bound tile) :
    raiseTiles world.config.width world.config.height octave grid world.tiles =
      some (raiseLand octave grid world).tiles := by
  obtain ⟨gridWidth, hextent, hextent'⟩ := gridWidth_word hworld hoctave
  have hwidth := hworld.width.2
  have hheight := hworld.height.2
  have harea : world.width * world.height ≤ 256 * 128 := Nat.mul_le_mul hwidth hheight
  have hsmall : ∀ i, i ≤ 256 * 128 → (UInt32.ofNat i).toNat = i := fun i hi =>
    UInt32.toNat_ofNat_of_lt' (by rw [UInt32.size]; omega)
  let body : Nat → Tile → Option Tile := fun i => raiseTile octave gridWidth grid
    (UInt32.ofNat (i % world.width)) (UInt32.ofNat (i / world.width))
  have hbody : ∀ y ∈ List.range world.height, ∀ x ∈ List.range world.width, ∀ tiles : List Tile,
      (do
        let index ← addWord (← mulWord (UInt32.ofNat y) world.config.width) (UInt32.ofNat x)
        updateAt (raiseTile octave gridWidth grid (UInt32.ofNat x) (UInt32.ofNat y)) index.toNat
          tiles) = updateAt (body (y * world.width + x)) (y * world.width + x) tiles := by
    intro y hy x hx tiles
    have hy := List.mem_range.mp hy
    have hx := List.mem_range.mp hx
    have hindex := index_lt hx hy
    obtain ⟨hcolumn, hrow⟩ := column_row (y := y) hx
    have hyWord : (UInt32.ofNat y).toNat = y := hsmall y (by omega)
    have hxWord : (UInt32.ofNat x).toNat = x := hsmall x (by omega)
    have hwidthEq : world.config.width.toNat = world.width := rfl
    obtain ⟨row, hrowWord, hrowWord'⟩ := mulWord_of_lt (a := UInt32.ofNat y)
      (b := world.config.width) (by rw [hyWord, hwidthEq, UInt32.size]; omega)
    rw [hyWord, hwidthEq] at hrowWord'
    obtain ⟨index, hindexWord, hindexWord'⟩ := addWord_of_lt (a := row) (b := UInt32.ofNat x) (by
      rw [hrowWord', hxWord, UInt32.size]
      omega)
    rw [hrowWord', hxWord] at hindexWord'
    simp only [hrowWord, hindexWord, Option.bind_eq_bind, Option.bind_some, hindexWord', body,
      hcolumn, hrow]
  have hloop : raiseTiles world.config.width world.config.height octave grid world.tiles =
      (List.range world.height).foldlM (fun tiles y => (List.range world.width).foldlM
        (fun tiles x => updateAt (body (y * world.width + x)) (y * world.width + x) tiles) tiles)
        world.tiles := by
    simp only [raiseTiles, hextent, Option.bind_eq_bind, Option.bind_some]
    exact foldlM_congr_mem (fun y hy tiles => foldlM_congr_mem (fun x hx s => hbody y hy x hx s)
      tiles) world.tiles
  have hcount : world.height * world.width = world.tiles.length := by
    rw [Nat.mul_comm]
    exact hworld.tiles.symm
  rw [hloop, foldlM_rows world.height world.width (fun tiles i => updateAt (body i) i tiles),
    hcount, raiseLand_eq]
  refine foldlM_updateAt fun i tile htile => ?_
  have hi : i < world.width * world.height := by
    rw [← hworld.tiles]
    exact (List.getElem?_eq_some_iff.mp htile).1
  have hcolumn := column_lt hi
  have hrow := row_lt hi
  have hx : (UInt32.ofNat (i % world.width)).toNat = i % world.width := hsmall _ (by omega)
  have hy : (UInt32.ofNat (i / world.width)).toNat = i / world.width := hsmall _ (by omega)
  have hraise := (raiseTile_eq hworld hoctave hgrid hextent' (x := UInt32.ofNat (i % world.width))
    (y := UInt32.ofNat (i / world.width)) (by rw [hx]; exact hcolumn) (by rw [hy]; exact hrow)
    hbound (hlow tile (List.mem_of_getElem? htile))).1
  rwa [hx, hy] at hraise

theorem low_raised {bound : Nat} {x y : Nat} {tile : Tile} (htile : Low bound tile)
    (hadd : latticeAddition octave (octave.gridWidth world) grid x y ≤ octave.most) :
    Low (bound + octave.most) (raised octave (octave.gridWidth world) grid x y tile) := by
  intro hland
  unfold raised lifted at hland ⊢
  by_cases hwater : tile.terrain = fdTerrainWater
  · rw [if_pos hwater] at hland
    exact absurd hwater hland
  · obtain ⟨e, he, helevation⟩ := htile hwater
    refine ⟨e + latticeAddition octave (octave.gridWidth world) grid x y, Nat.add_le_add he hadd, ?_⟩
    rw [if_neg hwater]
    simp only [helevation, Int32.ofNat_add]

/-- What an octave adds, tile by tile. -/
theorem latticeAddition_le (hworld : Sized world) (hoctave : octave ∈ octaves)
    (hgrid : Lattice octave world grid) {x y : Nat} (hx : x < world.width) (hy : y < world.height) :
    latticeAddition octave (octave.gridWidth world) grid x y ≤ octave.most := by
  obtain ⟨gridWidth, -, hgridWidth⟩ := gridWidth_word hworld hoctave
  have hwidth := hworld.width.2
  have hheight := hworld.height.2
  have hxWord : (UInt32.ofNat x).toNat = x := UInt32.toNat_ofNat_of_lt' (by rw [UInt32.size]; omega)
  have hyWord : (UInt32.ofNat y).toNat = y := UInt32.toNat_ofNat_of_lt' (by rw [UInt32.size]; omega)
  have hraise := (raiseTile_eq hworld hoctave hgrid hgridWidth (x := UInt32.ofNat x)
    (y := UInt32.ofNat y) (by rw [hxWord]; exact hx) (by rw [hyWord]; exact hy) (Nat.zero_le _)
    (low_sea 0)).2
  rwa [hxWord, hyWord] at hraise

theorem low_raiseLand (hworld : Sized world) (hoctave : octave ∈ octaves)
    (hgrid : Lattice octave world grid) {bound : Nat} (hlow : ∀ tile ∈ world.tiles, Low bound tile) :
    ∀ tile ∈ (raiseLand octave grid world).tiles, Low (bound + octave.most) tile := by
  intro tile htile
  obtain ⟨i, hi, rfl⟩ := List.mem_iff_getElem.mp htile
  rw [raiseLand_eq, List.length_mapIdx] at hi
  have harea : i < world.width * world.height := hi.trans_eq hworld.tiles
  simp only [raiseLand_eq, List.getElem_mapIdx]
  exact low_raised (hlow _ (List.getElem_mem hi))
    (latticeAddition_le hworld hoctave hgrid (column_lt harea) (row_lt harea))

theorem sized_raiseLand (hworld : Sized world) : Sized (raiseLand octave grid world) where
  width := hworld.width
  height := hworld.height
  tiles := by
    have hcount : (raiseLand octave grid world).tileCount = world.tileCount :=
      List.length_mapIdx
    rw [hcount]
    exact hworld.tiles

theorem Lattice.raiseLand (hgrid : Lattice octave world grid) (other : Octave)
    (otherGrid : List UInt32) :
    Lattice octave (FrontierDirectorate.raiseLand other otherGrid world) grid :=
  ⟨hgrid.length, hgrid.small⟩

end octave

section rain

variable {tile : Tile}

/-- The rainfall of one tile, as the generator has it. -/
def rained (tile : Tile) : Tile :=
  if tile.terrain = fdTerrainWater then tile
  else { tile with rainfallMm := rainfallOf tile.elevationCm }

theorem elevation_toNat {e : Nat} (h : e < 2 ^ 31) : (Int32.ofNat e).toUInt32.toNat = e := by
  rw [Int32.toUInt32_ofNat']
  exact UInt32.toNat_ofNat_of_lt' (by rw [UInt32.size]; omega)

/-- Rain is between the least and the most the generator allows. -/
theorem rainfallOf_bounds {e : Nat} (h : e < 2 ^ 31) :
    800 ≤ (rainfallOf (Int32.ofNat e)).toNat ∧ (rainfallOf (Int32.ofNat e)).toNat ≤ 2400 := by
  unfold rainfallOf
  rw [elevation_toNat h]
  by_cases hwet : 2400 < 800 + e * 1600 / 5000
  · simp only [if_pos hwet]
    decide
  · have hword : (UInt32.ofNat (800 + e * 1600 / 5000)).toNat = 800 + e * 1600 / 5000 :=
      UInt32.toNat_ofNat_of_lt' (by rw [UInt32.size]; omega)
    simp only [if_neg hwet, hword]
    omega

theorem rainTile_eq {bound : Nat} (hbound : bound ≤ 200000) (htile : Low bound tile) :
    rainTile tile = some (rained tile) := by
  unfold rainTile rained
  by_cases hwater : tile.terrain = fdTerrainWater
  · rw [if_pos hwater, if_pos hwater]
  · obtain ⟨e, he, helevation⟩ := htile hwater
    rw [if_neg hwater, if_neg hwater]
    have hnonneg : (0 : Int32) ≤ Int32.ofNat e := by
      rw [Int32.le_iff_toInt_le, Int32.toInt_ofNat_of_lt (by omega)]
      exact Int.natCast_nonneg e
    have hword : (Int32.ofNat e).toUInt32.toUInt64.toNat = e := by
      rw [UInt32.toNat_toUInt64, elevation_toNat (by omega)]
    obtain ⟨product, hproduct, hproduct'⟩ := mulLong_of_lt
      (a := (Int32.ofNat e).toUInt32.toUInt64) (b := 1600) (by
        rw [hword, UInt64.size, show (1600 : UInt64).toNat = 1600 from rfl]
        omega)
    rw [hword, show (1600 : UInt64).toNat = 1600 from rfl] at hproduct'
    obtain ⟨share, hshare, hshare'⟩ := divLong_of_pos (a := product) (b := 5000) (by decide)
    rw [hproduct', show (5000 : UInt64).toNat = 5000 from rfl] at hshare'
    obtain ⟨wet, hwet, hwet'⟩ := narrow_of_lt (a := share) (by
      rw [UInt32.size, hshare']
      omega)
    obtain ⟨rainfall, hrain, hrain'⟩ := addWord_of_lt (a := 800) (b := wet) (by
      rw [hwet', hshare', UInt32.size, show (800 : UInt32).toNat = 800 from rfl]
      omega)
    rw [hwet', hshare', show (800 : UInt32).toNat = 800 from rfl] at hrain'
    simp only [helevation, unsigned_of_nonneg hnonneg, hproduct, hshare, hwet, hrain,
      Option.bind_eq_bind, Option.bind_some]
    have hrainfall : (if 2400 < rainfall then 2400 else rainfall) = rainfallOf (Int32.ofNat e) := by
      unfold rainfallOf
      rw [elevation_toNat (by omega), ← hrain']
      have hiff : (2400 : UInt32) < rainfall ↔ 2400 < rainfall.toNat := UInt32.lt_iff_toNat_lt
      simp only [hiff, UInt32.ofNat_toNat]
    rw [hrainfall]
    rfl

/-- The rainfall of the whole map. -/
theorem rainTiles_eq {bound : Nat} (hbound : bound ≤ 200000) {tiles : List Tile}
    (hlow : ∀ tile ∈ tiles, Low bound tile) :
    (List.range tiles.length).foldlM (fun acc index => updateAt rainTile index acc) tiles =
      some (tiles.map rained) := by
  have hmap : tiles.mapIdx (fun _ => rained) = tiles.map rained :=
    List.mapIdx_eq_iff.mpr fun i => List.getElem?_map
  rw [← hmap]
  exact foldlM_updateAt fun i tile htile =>
    rainTile_eq hbound (hlow tile (List.mem_of_getElem? htile))

end rain

end FrontierDirectorate
