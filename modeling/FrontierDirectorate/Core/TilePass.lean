import Mathlib
import FrontierDirectorate.Core.Grid

/-!
# The pass over the tiles

The five rules of one tile and the index the pass reports. Four of the rules
overwrite the reported index; the known-terrain rule writes it only once.
-/
namespace FrontierDirectorate

namespace World

variable (world : World) (index : Nat)

def KnownTerrain : Prop :=
  fdTerrainWater ≤ (world.tile index).terrain ∧ (world.tile index).terrain ≤ fdTerrainSettlement

/-- Touches river or water, or carries river. -/
def Wet : Prop :=
  world.hasOverlay index fdTileOverlayRiver ∨
    (∃ near ∈ world.neighbors index, world.hasOverlay near fdTileOverlayRiver) ∨
    ∃ near ∈ world.neighbors index, world.terrain near = fdTerrainWater

/-- The rules whose failure overwrites the reported index. -/
structure PlainRules : Prop where
  overlays : (world.tile index).overlays &&& ~~~ fdTileOverlayAll = 0
  water : (world.tile index).terrain = fdTerrainWater → (world.tile index).elevationCm = 0
  land : (world.tile index).terrain ≠ fdTerrainWater → 0 < (world.tile index).elevationCm
  rainfall : (world.tile index).rainfallMm ≤ 5000
  wetlands : (world.tile index).terrain = fdTerrainWetlands → world.Wet index

/-- All five rules of one tile. -/
structure TileRules : Prop extends world.PlainRules index where
  known : world.KnownTerrain index

/-- What the reported index says after the first `index` tiles. -/
inductive Reported (world : World) (count : Nat) : Nat → Prop
  | clean (rules : ∀ i < count, world.TileRules i) : Reported world count uint32Max
  | unknown {first : Nat} (hfirst : first < count) (bad : ¬ world.KnownTerrain first)
      (before : ∀ i < first, world.KnownTerrain i) (plain : ∀ i < count, world.PlainRules i) :
      Reported world count first
  | broken {last : Nat} (hlast : last < count) (bad : ¬ world.PlainRules last)
      (after : ∀ i, last < i → i < count → world.PlainRules i) : Reported world count last

end World

section scan

variable {world : World} {index : Nat}

theorem adjacentTerrain_iff {terrain : UInt32} : fdAdjacentTerrain world index terrain ↔
    ∃ near ∈ world.neighbors index, world.terrain near = terrain := by
  simp only [fdAdjacentTerrain, List.any_eq_true, beq_iff_eq]

theorem neighborCount_eq_zero_iff {overlay : UInt32} {next : Nat}
    (hnear : ∀ near ∈ world.neighbors index, near ≠ uint32Max) :
    (fdNeighborCountWithOverlay world index overlay uint32Max next).1 = 0 ↔
      ¬ ∃ near ∈ world.neighbors index, world.hasOverlay near overlay := by
  simp only [fdNeighborCountWithOverlay, List.length_eq_zero_iff, List.filter_eq_nil_iff,
    Bool.and_eq_true, bne_iff_ne, ne_eq, not_and, not_exists]
  constructor
  · intro h near hmem
    exact h near hmem (hnear near hmem)
  · intro h near hmem _
    exact h near hmem

/-- The wetland rule as the pass checks it. -/
theorem wet_iff (hnear : ∀ near ∈ world.neighbors index, near ≠ uint32Max) :
    ¬ (¬ fdAdjacentTerrain world index fdTerrainWater ∧
      (world.tile index).overlays &&& fdTileOverlayRiver = 0 ∧
      (fdNeighborCountWithOverlay world index fdTileOverlayRiver uint32Max uint32Max).1 = 0) ↔
    world.Wet index := by
  rw [neighborCount_eq_zero_iff hnear, adjacentTerrain_iff]
  unfold World.Wet
  have hcarries : world.hasOverlay index fdTileOverlayRiver ↔
      ¬ (world.tile index).overlays &&& fdTileOverlayRiver = 0 := by
    simp only [World.hasOverlay, bne_iff_ne, ne_eq]
  rw [hcarries, not_and_or, not_and_or, not_not, not_not, or_comm, or_assoc]

/-- The index after one tile: a plain rule overwrites it, the terrain rule fills it. -/
theorem firstFailed_step (s : TileScan)
    (hnear : ∀ near ∈ world.neighbors index, near ≠ uint32Max) :
    (world.PlainRules index → (world.KnownTerrain index ∨ s.firstFailed ≠ uint32Max) →
      (tileScanStep world s index).firstFailed = s.firstFailed) ∧
    (world.PlainRules index → ¬ world.KnownTerrain index → s.firstFailed = uint32Max →
      (tileScanStep world s index).firstFailed = index) ∧
    (¬ world.PlainRules index → (tileScanStep world s index).firstFailed = index) := by
  have hwet := wet_iff hnear
  have hplain : world.PlainRules index ↔
      (world.tile index).overlays &&& ~~~ fdTileOverlayAll = 0 ∧
      ((world.tile index).terrain = fdTerrainWater → (world.tile index).elevationCm = 0) ∧
      ((world.tile index).terrain ≠ fdTerrainWater → 0 < (world.tile index).elevationCm) ∧
      (world.tile index).rainfallMm ≤ 5000 ∧
      ((world.tile index).terrain = fdTerrainWetlands → world.Wet index) :=
    ⟨fun h => ⟨h.overlays, h.water, h.land, h.rainfall, h.wetlands⟩,
      fun ⟨h1, h2, h3, h4, h5⟩ => ⟨h1, h2, h3, h4, h5⟩⟩
  have hland : ∀ e : Int32, 0 < e ↔ ¬ e ≤ 0 := fun e => Int32.not_le.symm
  have hrain : ∀ r : UInt32, r ≤ 5000 ↔ ¬ 5000 < r := fun r => UInt32.not_lt.symm
  rw [hplain, ← hwet, hland, hrain]
  unfold World.KnownTerrain
  simp only [tileScanStep]
  refine ⟨?_, ?_, ?_⟩
  · rintro ⟨h1, h2, h3, h4, h5⟩ hknown
    grind
  · rintro ⟨h1, h2, h3, h4, h5⟩ hknown hfirst
    grind
  · intro hplain
    grind

/-- One tile keeps the description of the reported index. -/
theorem reported_step {s : TileScan} {count : Nat} (hcount : count < uint32Max)
    (hnear : ∀ near ∈ world.neighbors count, near ≠ uint32Max)
    (h : world.Reported count s.firstFailed) :
    world.Reported (count + 1) (tileScanStep world s count).firstFailed := by
  obtain ⟨hkeep, hfill, hover⟩ := firstFailed_step s hnear
  by_cases hplain : world.PlainRules count
  · have hall : ∀ {P : Nat → Prop}, (∀ i < count, P i) → P count → ∀ i < count + 1, P i := by
      intro P hbefore hlast i hi
      rcases Nat.lt_succ_iff_lt_or_eq.mp hi with hlt | rfl
      · exact hbefore i hlt
      · exact hlast
    generalize s.firstFailed = first at h hkeep hfill
    cases h with
    | clean rules =>
        by_cases hknown : world.KnownTerrain count
        · rw [hkeep hplain (.inl hknown)]
          exact .clean (hall rules ⟨hplain, hknown⟩)
        · rw [hfill hplain hknown rfl]
          exact .unknown count.lt_succ_self hknown (fun i hi => (rules i hi).known)
            (hall (fun i hi => (rules i hi).toPlainRules) hplain)
    | unknown hlt bad before plain =>
        rw [hkeep hplain (.inr (by omega))]
        exact .unknown (Nat.lt_succ_of_lt hlt) bad before (hall plain hplain)
    | broken hlt bad after =>
        rw [hkeep hplain (.inr (by omega))]
        refine .broken (Nat.lt_succ_of_lt hlt) bad ?_
        intro i hi hle
        rcases Nat.lt_succ_iff_lt_or_eq.mp hle with hlt | rfl
        · exact after i hi hlt
        · exact hplain
  · rw [hover hplain]
    refine .broken count.lt_succ_self hplain ?_
    intro i hi hle
    omega

end scan

/-- After the whole pass. -/
theorem reported_scan {world : World} (hbounds : world.boundsHold) :
    world.Reported world.tileCount (scanTiles world).firstFailed := by
  have prefixes : ∀ count ≤ world.tileCount, world.Reported count
      ((List.range count).foldl (tileScanStep world)
        ⟨uint32Max, List.replicate 7 0, 0, 0⟩).firstFailed := by
    intro count hcount
    induction count with
    | zero => exact .clean fun i hi => absurd hi (Nat.not_lt_zero i)
    | succ count ih =>
        rw [List.range_succ, List.foldl_append]
        have hmax := hbounds.lt_max hcount
        exact reported_step (by show count < 4294967295; omega)
          (fun near hnear => hbounds.neighbors_ne hcount hnear) (ih (Nat.le_of_succ_le hcount))
  exact prefixes world.tileCount le_rfl

namespace World.Reported

variable {world : World} {count reported : Nat}

theorem eq_max (h : world.Reported count reported) (rules : ∀ i < count, world.TileRules i) :
    reported = uint32Max := by
  cases h with
  | clean _ => rfl
  | unknown hfirst bad before plain => exact absurd (rules _ hfirst).known bad
  | broken hlast bad after => exact absurd (rules _ hlast).toPlainRules bad

/-- A tile that breaks a plain rule is never after the reported one. -/
theorem le_reported (h : world.Reported count reported) {i : Nat} (hi : i < count)
    (hplain : ¬ world.PlainRules i) : i ≤ reported := by
  cases h with
  | clean rules => exact absurd (rules i hi).toPlainRules hplain
  | unknown hfirst bad before plain => exact absurd (plain i hi) hplain
  | broken hlast bad after =>
      by_contra hlt
      exact hplain (after i (Nat.lt_of_not_le hlt) hi)

/-- Without an overwriting tile behind it the first bad tile is the reported one. -/
theorem eq_first (h : world.Reported count reported) {i : Nat} (hi : i < count)
    (hbad : ¬ world.TileRules i) (hbefore : ∀ j < i, world.TileRules j)
    (hafter : ∀ j < count, ¬ world.PlainRules j → j ≤ i) : reported = i := by
  cases h with
  | clean rules => exact absurd (rules i hi) hbad
  | unknown hfirst bad before plain =>
      apply Nat.le_antisymm
      · by_contra hlt
        exact hbad ⟨plain i hi, before i (Nat.lt_of_not_le hlt)⟩
      · by_contra hlt
        exact bad (hbefore _ (Nat.lt_of_not_le hlt)).known
  | broken hlast bad after =>
      apply Nat.le_antisymm (hafter _ hlast bad)
      by_contra hlt
      exact bad (hbefore _ (Nat.lt_of_not_le hlt)).toPlainRules

end World.Reported

end FrontierDirectorate
