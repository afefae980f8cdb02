import Mathlib
import FrontierDirectorate.Core.GenerateLaws
import FrontierDirectorate.Core.Grid

/-!
# The shape of the coast

Laying the coast writes every tile once: a tile depends on its column, the side of
the sea and the width of the water on its row.
-/
namespace FrontierDirectorate
open Checks

section tile

variable {westWater : Bool} {width waterWidth x : Nat}

/-- Land at the coast and further inland. -/
theorem coastTile_land (hx : x < width)
    (h : (coastTile westWater width waterWidth x).terrain ≠ fdTerrainWater) :
    ∃ distance, distance < width ∧ coastTile westWater width waterWidth x =
      { Tile.zero with
        terrain := fdTerrainGrassland
        elevationCm := Int32.ofNat (100 + distance * 100) } := by
  unfold coastTile at h ⊢
  by_cases hwater : coastWater westWater width waterWidth x = true
  · rw [if_pos hwater] at h
    exact absurd rfl h
  · rw [if_neg hwater]
    refine ⟨_, ?_, rfl⟩
    cases westWater with
    | true =>
        have hge : ¬ x < waterWidth := fun hlt => hwater (decide_eq_true hlt)
        have hcoast : fdCoastX true width waterWidth = waterWidth := rfl
        rw [hcoast]
        split <;> omega
    | false =>
        have hlt : ¬ width - waterWidth ≤ x := fun hge => hwater (decide_eq_true hge)
        have hcoast : fdCoastX false width waterWidth = width - waterWidth - 1 := rfl
        rw [hcoast]
        split <;> omega

end tile

section rows

variable {draws : Draws} {plan : CandidatePlan} {attempt : UInt64} {fallback : Bool}

/-- Laying the first tiles of a row. -/
theorem layCoastTiles (westWater : Bool) (waterWidth y : Nat) (v : World)
    (hrow : y * v.width + v.width ≤ v.tileCount) :
    ∀ n ≤ v.width, ((List.range n).foldl (layCoastTile westWater waterWidth y) v).config = v.config ∧
      ((List.range n).foldl (layCoastTile westWater waterWidth y) v).tiles =
        v.tiles.mapIdx fun i tile =>
          if y * v.width ≤ i ∧ i < y * v.width + n then
            coastTile westWater v.width waterWidth (i - y * v.width) else tile := by
  intro n
  induction n with
  | zero =>
      intro _
      refine ⟨rfl, List.ext_getElem? fun i => ?_⟩
      rw [List.getElem?_mapIdx]
      have hnone : ¬ (y * v.width ≤ i ∧ i < y * v.width + 0) := by omega
      simp only [hnone, if_false, List.range_zero, List.foldl_nil, Option.map_id']
  | succ n ih =>
      intro hn
      obtain ⟨hconfig, htiles⟩ := ih (by omega)
      rw [List.range_succ, List.foldl_append]
      generalize (List.range n).foldl (layCoastTile westWater waterWidth y) v = w at hconfig htiles
      have hwidth : w.width = v.width := congrArg (fun config => config.width.toNat) hconfig
      refine ⟨hconfig, List.ext_getElem? fun i => ?_⟩
      have hstep : (layCoastTile westWater waterWidth y w n).tiles =
          w.tiles.modify (y * v.width + n) fun _ => coastTile westWater v.width waterWidth n := by
        unfold layCoastTile
        rw [hwidth]
        rfl
      rw [List.foldl_cons, List.foldl_nil, hstep, htiles, List.getElem?_modify,
        List.getElem?_mapIdx, List.getElem?_mapIdx]
      by_cases hi : i = y * v.width + n
      · have hin : y * v.width ≤ i ∧ i < y * v.width + (n + 1) := by omega
        have hcolumn : i - y * v.width = n := by omega
        have hlt : i < v.tiles.length := lt_of_lt_of_le (by omega) hrow
        rw [List.getElem?_eq_getElem hlt]
        simp only [Option.map_some, if_pos hi.symm, if_pos hin, hcolumn]
        rfl
      · have hiff : (y * v.width ≤ i ∧ i < y * v.width + n) ↔
            (y * v.width ≤ i ∧ i < y * v.width + (n + 1)) := by omega
        simp only [if_neg (Ne.symm hi), hiff]
        exact id_map _

theorem rowWaterWidth_congr {v w : World} (hconfig : w.config = v.config) {y waterWidth : Nat}
    (h : rowWaterWidth draws w plan attempt fallback y = .ok waterWidth) :
    rowWaterWidth draws v plan attempt fallback y = .ok waterWidth := by
  have hwidth : w.width = v.width := congrArg (fun config => config.width.toNat) hconfig
  unfold rowWaterWidth at h ⊢
  simp only [World.baseWaterWidth, World.coastAmplitude, hwidth] at h ⊢
  split at h
  · next hstraight =>
      rw [if_pos hstraight]
      exact h
  · next hbent =>
      rw [if_neg hbent]
      split at h
      · next hfallback =>
          rw [if_pos hfallback]
          exact h
      · next hfallback =>
          rw [if_neg hfallback]
          obtain ⟨offset, hdraw, h⟩ := bind_eq_ok.mp h
          cases h
          unfold drawIn at hdraw ⊢
          split at hdraw
          · cases hdraw
          · next value =>
              cases hdraw
              rfl

/-- The coast laid so far: `rows` rows over a map of the size of `v`. -/
structure CoastLaid (draws : Draws) (plan : CandidatePlan) (attempt : UInt64) (fallback : Bool)
    (v : World) (waterWidth : Nat → Nat) (rows : Nat) (w : World) : Prop where
  config : w.config = v.config
  count : w.tileCount = v.tileCount
  water : ∀ y, y < rows → rowWaterWidth draws v plan attempt fallback y = .ok (waterWidth y)
  tiles : ∀ y x, y < rows → x < v.width →
    w.tiles[y * v.width + x]? = some (coastTile plan.westWater v.width (waterWidth y) x)

theorem CoastLaid.step {v w w' : World} {waterWidth : Nat → Nat} {y : Nat}
    (h : CoastLaid draws plan attempt fallback v waterWidth y w)
    (hrow : y * v.width + v.width ≤ v.tileCount)
    (hlay : layCoastRow draws plan attempt fallback w y = .ok w') :
    ∃ waterWidth', CoastLaid draws plan attempt fallback v waterWidth' (y + 1) w' := by
  obtain ⟨width, hwidth, hlay⟩ := bind_eq_ok.mp hlay
  cases hlay
  have hsame : w.width = v.width := congrArg (fun config => config.width.toNat) h.config
  have hroom : y * w.width + w.width ≤ w.tileCount := by
    rw [hsame, h.count]
    exact hrow
  obtain ⟨hconfig, htiles⟩ := layCoastTiles plan.westWater width y w hroom w.width le_rfl
  generalize (List.range w.width).foldl (layCoastTile plan.westWater width y) w = w' at hconfig htiles
  have hcount : w'.tileCount = w.tileCount := by
    unfold World.tileCount
    rw [htiles, List.length_mapIdx]
  refine ⟨Function.update waterWidth y width, hconfig.trans h.config, hcount.trans h.count, ?_, ?_⟩
  · intro other hother
    rcases Nat.lt_succ_iff_lt_or_eq.mp hother with hlt | rfl
    · rw [Function.update_of_ne hlt.ne]
      exact h.water other hlt
    · rw [Function.update_self]
      exact rowWaterWidth_congr h.config hwidth
  · intro other x hother hx
    rw [htiles, List.getElem?_mapIdx, hsame]
    rcases Nat.lt_succ_iff_lt_or_eq.mp hother with hlt | rfl
    · have hbefore : other * v.width + x < y * v.width :=
        (index_lt hx hlt).trans_eq (Nat.mul_comm v.width y)
      rw [Function.update_of_ne hlt.ne, h.tiles other x hlt hx, Option.map_some,
        if_neg fun hin => absurd hin.1 (Nat.not_le.mpr hbefore)]
    · have hlt : other * v.width + x < w.tiles.length :=
        lt_of_lt_of_le (Nat.add_lt_add_left hx _) (hrow.trans_eq h.count.symm)
      rw [Function.update_self, List.getElem?_eq_getElem hlt, Option.map_some,
        if_pos ⟨Nat.le_add_right _ _, Nat.add_lt_add_left hx _⟩, Nat.add_sub_cancel_left]

/-- The coast of a whole map. -/
theorem coastLaid_layCoast {v w : World} (hsize : v.tileCount = v.width * v.height)
    (h : layCoast draws plan attempt fallback v = .ok w) :
    ∃ waterWidth, CoastLaid draws plan attempt fallback v waterWidth v.height w := by
  have hrows : ∀ n ≤ v.height, ∀ w, forEach (List.range n)
      (layCoastRow draws plan attempt fallback) v.cleared = .ok w →
      ∃ waterWidth, CoastLaid draws plan attempt fallback v waterWidth n w := by
    intro n
    induction n with
    | zero =>
        intro _ w hw
        cases hw
        exact ⟨fun _ => 0, rfl, List.length_replicate, fun y hy => absurd hy (Nat.not_lt_zero y),
          fun y x hy => absurd hy (Nat.not_lt_zero y)⟩
    | succ n ih =>
        intro hn w hw
        rw [List.range_succ, forEach_append] at hw
        obtain ⟨before, hbefore, hw⟩ := bind_eq_ok.mp hw
        obtain ⟨last, hlast, hw⟩ := bind_eq_ok.mp hw
        cases hw
        obtain ⟨waterWidth, hlaid⟩ := ih (by omega) before hbefore
        refine hlaid.step ?_ hlast
        rw [hsize, ← Nat.succ_mul, Nat.mul_comm v.width]
        exact Nat.mul_le_mul_right _ hn
  exact hrows v.height le_rfl w h

end rows

end FrontierDirectorate
