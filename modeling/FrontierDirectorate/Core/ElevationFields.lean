import Mathlib
import FrontierDirectorate.Core.CoastShape
import FrontierDirectorate.Core.Candidate
import FrontierDirectorate.Core.ElevationLaws

/-!
# The map the fields leave

Whatever is drawn below its bound, the fields leave water alone and raise and rain on
land within limits, tile by tile.
-/
namespace FrontierDirectorate
open Checks

section fields

variable {world : World} {grids : Octave → List UInt32}

/-- The heights generation starts from: each step from the coast adds a metre. -/
def Based (world : World) : Prop :=
  ∀ tile ∈ world.tiles, tile.terrain ≠ fdTerrainWater →
    ∃ distance, distance < world.width ∧ tile.elevationCm = Int32.ofNat (100 + distance * 100)

/-- Every octave has its lattice. -/
def Latticed (world : World) (grids : Octave → List UInt32) : Prop :=
  ∀ octave ∈ octaves, Lattice octave world (grids octave)

/-- The map the generator makes of the lattices. -/
def fieldsOver (grids : Octave → List UInt32) (world : World) : World :=
  waterLand (octaves.foldl (fun world octave => raiseLand octave (grids octave) world) world)

/-- What the fields make of a tile: water stays as it is, land rises by at most 1022 cm and gets a
rainfall between 800 and 2400 mm. -/
structure FieldTile (tile tile' : Tile) : Prop where
  water : tile.terrain = fdTerrainWater → tile' = tile
  land : tile.terrain ≠ fdTerrainWater → ∃ addition : Nat, addition ≤ 1022 ∧
    tile'.elevationCm.toInt = tile.elevationCm.toInt + addition ∧
    (800 ≤ tile'.rainfallMm.toNat ∧ tile'.rainfallMm.toNat ≤ 2400) ∧
    tile' = { tile with elevationCm := tile'.elevationCm, rainfallMm := tile'.rainfallMm }

theorem Based.low (h : Based world) (hworld : Sized world) :
    ∀ tile ∈ world.tiles, Low 25600 tile := by
  intro tile htile hland
  obtain ⟨distance, hdistance, helevation⟩ := h tile htile hland
  have hwidth := hworld.width.2
  exact ⟨_, by omega, helevation⟩

/-- The coast of a candidate is such a map. -/
theorem based_layCoast {draws : Draws} {plan : CandidatePlan} {attempt : UInt64} {fallback : Bool}
    {v : World} (hsize : v.tileCount = v.width * v.height)
    (h : layCoast draws plan attempt fallback v = .ok world) : Based world := by
  obtain ⟨waterWidth, hlaid⟩ := coastLaid_layCoast hsize h
  have hwidth : world.width = v.width := congrArg (fun config => config.width.toNat) hlaid.config
  intro tile htile hland
  obtain ⟨i, hi, rfl⟩ := List.mem_iff_getElem.mp htile
  have harea : i < v.width * v.height := hi.trans_eq (hlaid.count.trans hsize)
  have hcell := hlaid.tiles (i / v.width) (i % v.width) (row_lt harea) (column_lt harea)
  rw [index_eq, List.getElem?_eq_getElem hi, Option.some.injEq] at hcell
  rw [hcell] at hland ⊢
  obtain ⟨distance, hdistance, heq⟩ := coastTile_land (column_lt harea) hland
  exact ⟨distance, hwidth.symm ▸ hdistance, congrArg Tile.elevationCm heq⟩

/-- What the three octaves and the rainfall make of one tile. -/
theorem fieldTile_lifted {tile : Tile} (htile : Low 25600 tile) {a b c : Nat} (ha : a ≤ 146)
    (hb : b ≤ 292) (hc : c ≤ 584) :
    FieldTile tile (rained (lifted c (lifted b (lifted a tile)))) := by
  by_cases hwater : tile.terrain = fdTerrainWater
  · have hstay : ∀ addition, lifted addition tile = tile := fun addition => if_pos hwater
    rw [hstay, hstay, hstay]
    exact ⟨fun _ => if_pos hwater, fun hland => absurd hwater hland⟩
  · obtain ⟨e, he, helevation⟩ := htile hwater
    have hsum : lifted c (lifted b (lifted a tile)) =
        { tile with elevationCm := Int32.ofNat (e + (a + b + c)) } := by
      have hadd : Int32.ofNat e + Int32.ofNat a + Int32.ofNat b + Int32.ofNat c =
          Int32.ofNat (e + (a + b + c)) := by
        rw [← Int32.ofNat_add, ← Int32.ofNat_add, ← Int32.ofNat_add]
        congr 1
        omega
      simp only [lifted, if_neg hwater, helevation, hadd]
    have hwet : rained (lifted c (lifted b (lifted a tile))) =
        { tile with
          elevationCm := Int32.ofNat (e + (a + b + c))
          rainfallMm := rainfallOf (Int32.ofNat (e + (a + b + c))) } := by
      rw [hsum, rained]
      exact if_neg hwater
    rw [hwet]
    refine ⟨fun hwater' => absurd hwater' hwater, fun _ => ⟨a + b + c, by omega, ?_, ?_, rfl⟩⟩
    · rw [helevation, Int32.toInt_ofNat_of_lt (by omega), Int32.toInt_ofNat_of_lt (by omega)]
      omega
    · exact rainfallOf_bounds (by omega)

theorem fieldsOver_tile (hworld : Sized world) (hbase : Based world)
    (hgrids : Latticed world grids) {i : Nat} {tile : Tile} (htile : world.tiles[i]? = some tile) :
    ∃ tile', (fieldsOver grids world).tiles[i]? = some tile' ∧ FieldTile tile tile' := by
  have harea : i < world.width * world.height := by
    rw [← hworld.tiles]
    exact (List.getElem?_eq_some_iff.mp htile).1
  have hmost : ∀ octave ∈ octaves, latticeAddition octave (octave.gridWidth world) (grids octave)
      (i % world.width) (i / world.width) ≤ octave.most := fun octave hoctave =>
    latticeAddition_le hworld hoctave (hgrids octave hoctave) (column_lt harea) (row_lt harea)
  refine ⟨_, ?_, fieldTile_lifted (hbase.low hworld tile (List.mem_of_getElem? htile))
    (hmost ⟨0, 16, 1⟩ List.mem_cons_self)
    (hmost ⟨1, 8, 2⟩ (List.mem_cons_of_mem _ List.mem_cons_self))
    (hmost ⟨2, 4, 4⟩ (List.mem_cons_of_mem _ (List.mem_cons_of_mem _ List.mem_cons_self)))⟩
  have hfields : (fieldsOver grids world).tiles = (((world.tiles.mapIdx fun index =>
      raised ⟨0, 16, 1⟩ (Octave.gridWidth ⟨0, 16, 1⟩ world) (grids ⟨0, 16, 1⟩) (index % world.width)
        (index / world.width)).mapIdx fun index =>
      raised ⟨1, 8, 2⟩ (Octave.gridWidth ⟨1, 8, 2⟩ world) (grids ⟨1, 8, 2⟩) (index % world.width)
        (index / world.width)).mapIdx fun index =>
      raised ⟨2, 4, 4⟩ (Octave.gridWidth ⟨2, 4, 4⟩ world) (grids ⟨2, 4, 4⟩) (index % world.width)
        (index / world.width)).map rained := rfl
  rw [hfields, List.getElem?_map, List.getElem?_mapIdx, List.getElem?_mapIdx,
    List.getElem?_mapIdx, htile]
  rfl

theorem drawIn_lt {draw : Except FdResult UInt32} {bound : Nat} {value : UInt32}
    (hdraw : ∀ value, draw = .ok value → value.toNat < bound) (h : drawIn world draw = .ok value) :
    value.toNat < bound := by
  cases draw with
  | error result => cases h
  | ok drawn =>
      rw [← Except.ok.inj h]
      exact hdraw drawn rfl

/-- A lattice that is drawn has its cells and its bound. -/
theorem lattice_of_draws {draws : Draws} {attempt : UInt64} {octave : Octave} {grid : List UInt32}
    (hdraws : ∀ domain subject occurrence sample site value,
      draws.bounded domain subject occurrence sample site 1024 = .ok value → value.toNat < 1024)
    (h : drawLattice draws world attempt octave = .ok grid) : Lattice octave world grid where
  length := by
    rw [length_of_mapM h, List.length_range]
  small := by
    intro value hvalue
    obtain ⟨i, hi, rfl⟩ := List.mem_iff_getElem.mp hvalue
    have hcount : i < octave.gridWidth world * octave.gridHeight world := by
      rw [length_of_mapM h, List.length_range] at hi
      exact hi
    obtain ⟨cell, hget, hcell⟩ := getElem?_of_mapM h (List.getElem?_range hcount)
    rw [List.getElem?_eq_getElem hi, Option.some.injEq] at hget
    rw [hget]
    exact drawIn_lt (fun value hdrawn => hdraws _ _ _ _ _ value hdrawn) hcell

/-- Whatever the generator draws below 1024, its fields are those of some lattices. -/
theorem elevationOver_fields {draws : Draws} {attempt : UInt64} {w : World}
    (hdraws : ∀ domain subject occurrence sample site value,
      draws.bounded domain subject occurrence sample site 1024 = .ok value → value.toNat < 1024)
    (h : elevationOver draws attempt world = .ok w) :
    ∃ grids, Latticed world grids ∧ w = fieldsOver grids world := by
  have hoctave : ∀ {octave : Octave} {u v : World}, octaveOver draws attempt u octave = .ok v →
      ∃ grid, Lattice octave u grid ∧ v = raiseLand octave grid u := by
    intro octave u v hover
    unfold octaveOver at hover
    cases hgrid : drawLattice draws u attempt octave with
    | error halted =>
        rw [hgrid] at hover
        cases hover
    | ok grid =>
        rw [hgrid] at hover
        exact ⟨grid, lattice_of_draws hdraws hgrid, (Except.ok.inj hover).symm⟩
  unfold elevationOver at h
  cases hloop : forEach octaves (octaveOver draws attempt) world with
  | error halted =>
      rw [hloop] at h
      cases h
  | ok last =>
      rw [hloop] at h
      obtain ⟨first, hfirst, hloop⟩ := bind_eq_ok.mp hloop
      obtain ⟨second, hsecond, hloop⟩ := bind_eq_ok.mp hloop
      obtain ⟨third, hthird, hloop⟩ := bind_eq_ok.mp hloop
      obtain ⟨grid0, hgrid0, rfl⟩ := hoctave hfirst
      obtain ⟨grid1, hgrid1, rfl⟩ := hoctave hsecond
      obtain ⟨grid2, hgrid2, rfl⟩ := hoctave hthird
      cases hloop
      refine ⟨fun octave => if octave.index = 0 then grid0 else if octave.index = 1 then grid1
        else grid2, ?_, (Except.ok.inj h).symm⟩
      intro octave hmem
      simp only [octaves, List.mem_cons, List.not_mem_nil, or_false] at hmem
      obtain rfl | rfl | rfl := hmem
      · exact hgrid0
      · exact ⟨hgrid1.length, hgrid1.small⟩
      · exact ⟨hgrid2.length, hgrid2.small⟩

end fields

end FrontierDirectorate
