import Mathlib
import FrontierDirectorate.Core.CoastShape

/-!
# Where a plan puts things

Columns are counted from the side of the sea, so that both facings are one case. In
these depths the river is a path of three straight pieces, from the coast inland.
-/
namespace FrontierDirectorate
open Checks

/-- The column counted from the side of the sea. -/
def shore (westWater : Bool) (width x : Nat) : Nat := if westWater then x else width - 1 - x

section shore

variable (westWater : Bool) {width x : Nat}

theorem shore_lt (h : x < width) : shore westWater width x < width := by
  unfold shore
  split <;> omega

@[simp] theorem shore_shore (h : x < width) :
    shore westWater width (shore westWater width x) = x := by
  unfold shore
  split <;> omega

variable {westWater}

theorem shore_inj {x' : Nat} (h : x < width) (h' : x' < width)
    (heq : shore westWater width x = shore westWater width x') : x = x' := by
  rw [← shore_shore westWater h, heq, shore_shore westWater h']

theorem coastWater_iff (westWater : Bool) (waterWidth : Nat) (h : x < width) :
    coastWater westWater width waterWidth x = true ↔ shore westWater width x < waterWidth := by
  unfold coastWater shore
  cases westWater with
  | true => simp only [if_true, decide_eq_true_eq]
  | false =>
      simp only [Bool.false_eq_true, if_false, decide_eq_true_eq]
      omega

theorem fdCoastX_eq {waterWidth : Nat} (h : waterWidth < width) :
    fdCoastX westWater width waterWidth = shore westWater width waterWidth := by
  unfold fdCoastX shore
  cases westWater with
  | true => rfl
  | false =>
      simp only [Bool.false_eq_true, if_false]
      omega

/-- Columns that differ by a step are a step apart in depth too. -/
theorem fdAbsDiff_shore {x' : Nat} (h : x < width) (h' : x' < width) :
    fdAbsDiffU32 (shore westWater width x) (shore westWater width x') = fdAbsDiffU32 x x' := by
  unfold shore fdAbsDiffU32
  cases westWater <;> simp
  split <;> split <;> omega

/-- The tile at a depth and a row. -/
def shoreCell (westWater : Bool) (width d y : Nat) : Nat := y * width + shore westWater width d

section cell

variable {height d y d' y' i : Nat}

theorem shoreCell_lt (hd : d < width) (hy : y < height) :
    shoreCell westWater width d y < width * height := index_lt (shore_lt westWater hd) hy

theorem shoreCell_coordinates (westWater : Bool) (y : Nat) (hd : d < width) :
    shoreCell westWater width d y % width = shore westWater width d ∧
      shoreCell westWater width d y / width = y := column_row (shore_lt westWater hd)

theorem shoreCell_inj (hd : d < width) (hd' : d' < width)
    (heq : shoreCell westWater width d y = shoreCell westWater width d' y') : d = d' ∧ y = y' := by
  obtain ⟨hcolumn, hrow⟩ := shoreCell_coordinates westWater y hd
  obtain ⟨hcolumn', hrow'⟩ := shoreCell_coordinates westWater y' hd'
  rw [heq] at hcolumn hrow
  exact ⟨shore_inj hd hd' (hcolumn.symm.trans hcolumn'), hrow.symm.trans hrow'⟩

/-- Every tile of the map has a depth and a row. -/
theorem exists_shoreCell (westWater : Bool) (hi : i < width * height) :
    ∃ d y, d < width ∧ y < height ∧ i = shoreCell westWater width d y := by
  refine ⟨shore westWater width (i % width), i / width, shore_lt _ (column_lt hi), row_lt hi, ?_⟩
  rw [shoreCell, shore_shore _ (column_lt hi), index_eq]

theorem fdManhattan_shoreCell (hd : d < width) (hd' : d' < width) :
    fdManhattan (shoreCell westWater width d y % width) (shoreCell westWater width d y / width)
        (shoreCell westWater width d' y' % width) (shoreCell westWater width d' y' / width) =
      fdManhattan d y d' y' := by
  obtain ⟨hcolumn, hrow⟩ := shoreCell_coordinates westWater y hd
  obtain ⟨hcolumn', hrow'⟩ := shoreCell_coordinates westWater y' hd'
  rw [hcolumn, hrow, hcolumn', hrow', fdManhattan, fdManhattan, fdAbsDiff_shore hd hd']

end cell

end shore

/-- The draws never fail and stay below their bounds. -/
def Draws.Answer (draws : Draws) : Prop :=
  ∀ domain subject occurrence sample site bound, bound ≠ 0 →
    ∃ value, draws.bounded domain subject occurrence sample site bound = .ok value ∧ value < bound

section plan

variable {draws : Draws} {attempt : UInt64} {world : World}

theorem drawIn_answer (h : draws.Answer) (world : World) (domain : UInt32)
    (subject occurrence sample : UInt64) (site bound : UInt32) (hbound : bound ≠ 0) :
    ∃ value, drawIn world (draws.bounded domain subject occurrence sample site bound) = .ok value ∧
      value.toNat < bound.toNat := by
  obtain ⟨value, hdraw, hlt⟩ := h domain subject occurrence sample site bound hbound
  refine ⟨value, ?_, UInt32.lt_iff_toNat_lt.mp hlt⟩
  rw [hdraw]
  rfl

/-- The rows of a plan. -/
structure CandidatePlan.Fits (plan : CandidatePlan) (height : Nat) : Prop where
  outlet : 2 ≤ plan.outletY ∧ plan.outletY ≤ height / 3 + 1
  source : plan.sourceY = plan.outletY ∨ plan.sourceY = plan.outletY + 2 ∨
    plan.sourceY = plan.outletY + 3
  tie : plan.tieChoice ≤ 1

theorem drawPlan_fits (hdraws : draws.Answer) (attempt : UInt64) (hbounds : world.boundsHold) :
    ∃ plan, drawPlan draws world attempt = .ok plan ∧ plan.Fits world.height := by
  obtain ⟨-, -, hlow, hhigh, -⟩ := hbounds.sizes
  have hrange : outletYRange world.height = world.height / 3 := if_neg (by omega)
  have hword : (UInt32.ofNat (outletYRange world.height)).toNat = world.height / 3 := by
    rw [hrange]
    exact UInt32.toNat_ofNat_of_lt' (by rw [UInt32.size]; omega)
  have hne : UInt32.ofNat (outletYRange world.height) ≠ 0 := by
    intro hzero
    rw [hzero] at hword
    have hpos : world.height / 3 = 0 := hword.symm
    omega
  obtain ⟨facing, hfacing, -⟩ := drawIn_answer hdraws world fdRngDomainCoast 0 attempt 0
    fdRngSiteCoastFacing 2 (by decide)
  obtain ⟨offset, hoffset, hoffsetLt⟩ := drawIn_answer hdraws world fdRngDomainSettlementPlacement 0
    attempt 0 fdRngSiteSettlementRow _ hne
  obtain ⟨choice, hchoice, hchoiceLt⟩ := drawIn_answer hdraws world fdRngDomainRiverSource 0 attempt
    0 fdRngSiteRiverSourceRow 3 (by decide)
  obtain ⟨tie, htie, htieLt⟩ := drawIn_answer hdraws world fdRngDomainRiverTieBreak 0 attempt 0
    fdRngSiteRiverTie 2 (by decide)
  have hchoice3 : choice.toNat < 3 := hchoiceLt
  have htie2 : tie.toNat < 2 := htieLt
  rw [hword] at hoffsetLt
  have houtlet : planOutletY world.height offset.toNat = 2 + offset.toNat := if_neg (by omega)
  have hlowRow : 2 ≤ 2 + offset.toNat := Nat.le_add_right 2 _
  have hhighRow : 2 + offset.toNat ≤ world.height / 3 + 1 := by omega
  have hsource : planSourceY world.height (2 + offset.toNat) choice.toNat = 2 + offset.toNat ∨
      planSourceY world.height (2 + offset.toNat) choice.toNat = 2 + offset.toNat + 2 ∨
      planSourceY world.height (2 + offset.toNat) choice.toNat = 2 + offset.toNat + 3 := by
    unfold planSourceY
    dsimp only
    split <;> split <;> omega
  refine ⟨⟨facing == 0, 2 + offset.toNat, planSourceY world.height (2 + offset.toNat) choice.toNat,
    tie.toNat⟩, ?_, ⟨hlowRow, hhighRow⟩, hsource, Nat.le_of_lt_succ htie2⟩
  unfold drawPlan
  rw [hfacing, ok_bind, hoffset, ok_bind, hchoice, ok_bind, htie, ok_bind, houtlet]
  rfl

end plan

section steps

theorem stepsTowards_up (start count : Nat) :
    stepsTowards start (start + count) = (List.range count).map (start + 1 + ·) := by
  induction count generalizing start with
  | zero =>
      unfold stepsTowards
      exact if_pos rfl
  | succ count ih =>
      unfold stepsTowards
      rw [if_neg (by omega)]
      dsimp only
      rw [if_pos (by omega), show start + (count + 1) = start + 1 + count by omega, ih,
        List.range_succ_eq_map, List.map_cons, List.map_map]
      congr 1
      refine List.map_congr_left fun i _ => ?_
      simp only [Function.comp_apply]
      omega

theorem stepsTowards_down (goal count : Nat) :
    stepsTowards (goal + count) goal = (List.range count).map (goal + count - 1 - ·) := by
  induction count with
  | zero =>
      unfold stepsTowards
      exact if_pos rfl
  | succ count ih =>
      unfold stepsTowards
      rw [if_neg (by omega)]
      dsimp only
      rw [if_neg (by omega), show goal + (count + 1) - 1 = goal + count by omega, ih,
        List.range_succ_eq_map, List.map_cons, List.map_map]
      congr 1
      refine List.map_congr_left fun i _ => ?_
      simp only [Function.comp_apply]
      omega

/-- A walk inland, whichever way that is. -/
theorem stepsTowards_shore {westWater : Bool} {width start count : Nat}
    (h : start + count < width) : stepsTowards (shore westWater width start)
        (shore westWater width (start + count)) =
      (List.range count).map fun i => shore westWater width (start + 1 + i) := by
  cases westWater with
  | true => exact stepsTowards_up start count
  | false =>
      have hstart : shore false width start = width - 1 - (start + count) + count := by
        simp only [shore, Bool.false_eq_true, if_false]
        omega
      rw [hstart]
      refine (stepsTowards_down _ count).trans (List.map_congr_left fun i hi => ?_)
      rw [List.mem_range] at hi
      simp only [shore, Bool.false_eq_true, if_false]
      omega

end steps

section course

/-- The column in which the river turns. -/
def CandidatePlan.bendX (plan : CandidatePlan) (width : Nat) : Nat :=
  (fdCoastX plan.westWater width (width * 30 / 100) +
    (if plan.westWater then width - 2 else 1) + plan.tieChoice) / 2

/-- Its depth. -/
def CandidatePlan.bend (plan : CandidatePlan) (width : Nat) : Nat :=
  shore plan.westWater width (plan.bendX width)

/-- Depth and row of the tiles of the river, from the outlet on. -/
def CandidatePlan.riverCell (plan : CandidatePlan) (width i : Nat) : Nat × Nat :=
  let base := width * 30 / 100
  let turn := plan.bend width - base
  let drop := plan.sourceY - plan.outletY
  if i ≤ turn then (base + i, plan.outletY)
  else if i ≤ turn + drop then (plan.bend width, plan.outletY + (i - turn))
  else (base + i - drop, plan.sourceY)

/-- How many there are. -/
def CandidatePlan.riverLength (plan : CandidatePlan) (width : Nat) : Nat :=
  width - 2 - width * 30 / 100 + (plan.sourceY - plan.outletY) + 1

variable {plan : CandidatePlan} {width height : Nat}

/-- The bend is far from the coast and from the source. -/
theorem bend_bounds (htie : plan.tieChoice ≤ 1) (hwidth : 32 ≤ width) :
    plan.bendX width < width ∧ width * 30 / 100 + width / 4 ≤ plan.bend width ∧
      plan.bend width + width / 4 ≤ width - 2 := by
  unfold CandidatePlan.bend CandidatePlan.bendX shore fdCoastX
  cases plan.westWater with
  | true =>
      simp only [if_true]
      omega
  | false =>
      simp only [Bool.false_eq_true, if_false]
      omega

/-- The course behind the outlet, tile by tile. -/
theorem riverCourse_eq (hfits : plan.Fits height) (hwidth : 32 ≤ width) :
    riverCourse (fdCoastX plan.westWater width (width * 30 / 100)) plan.outletY (plan.bendX width)
        (if plan.westWater then width - 2 else 1) plan.sourceY =
      (List.range (plan.riverLength width - 1)).map fun i =>
        (shore plan.westWater width (plan.riverCell width (i + 1)).1,
          (plan.riverCell width (i + 1)).2) := by
  obtain ⟨hbendX, hlow, hhigh⟩ := bend_bounds hfits.tie hwidth
  have hsourceY : plan.outletY ≤ plan.sourceY := by
    rcases hfits.source with h | h | h <;> omega
  have hsource : (if plan.westWater then width - 2 else 1) =
      shore plan.westWater width (width - 2) := by
    unfold shore
    cases plan.westWater with
    | true => rfl
    | false =>
        simp only [Bool.false_eq_true, if_false]
        omega
  have hcolumn : plan.bendX width = shore plan.westWater width (plan.bend width) :=
    (shore_shore _ hbendX).symm
  obtain ⟨turn, hturn⟩ := Nat.exists_eq_add_of_le (show width * 30 / 100 ≤ plan.bend width by omega)
  obtain ⟨drop, hdrop⟩ := Nat.exists_eq_add_of_le hsourceY
  obtain ⟨rest, hrest⟩ := Nat.exists_eq_add_of_le (show plan.bend width ≤ width - 2 by omega)
  have hlength : plan.riverLength width - 1 = turn + drop + rest := by
    unfold CandidatePlan.riverLength
    omega
  have hfirst : stepsTowards (shore plan.westWater width (width * 30 / 100))
      (shore plan.westWater width (plan.bend width)) =
        (List.range turn).map fun i => shore plan.westWater width (width * 30 / 100 + 1 + i) := by
    rw [hturn]
    exact stepsTowards_shore (by omega)
  have hlast : stepsTowards (shore plan.westWater width (plan.bend width))
      (shore plan.westWater width (width - 2)) =
        (List.range rest).map fun i => shore plan.westWater width (plan.bend width + 1 + i) := by
    rw [hrest]
    exact stepsTowards_shore (by omega)
  have hdown : stepsTowards plan.outletY plan.sourceY =
      (List.range drop).map (plan.outletY + 1 + ·) := by
    rw [hdrop]
    exact stepsTowards_up _ _
  unfold riverCourse
  rw [hsource, hcolumn, fdCoastX_eq (by omega), hfirst, hlast, hdown, hlength, List.range_add,
    List.range_add, List.map_append, List.map_append, List.map_map, List.map_map, List.map_map,
    List.map_map, List.map_map]
  have hcell : ∀ i, plan.riverCell width i =
      if i ≤ turn then (width * 30 / 100 + i, plan.outletY)
      else if i ≤ turn + drop then (plan.bend width, plan.outletY + (i - turn))
      else (width * 30 / 100 + i - drop, plan.sourceY) := by
    intro i
    unfold CandidatePlan.riverCell
    dsimp only
    rw [show plan.bend width - width * 30 / 100 = turn by omega,
      show plan.sourceY - plan.outletY = drop by omega]
  congr 1
  · congr 1
    · refine List.map_congr_left fun i hi => ?_
      rw [List.mem_range] at hi
      simp only [Function.comp_apply, hcell]
      rw [if_pos (by omega), Nat.add_assoc, Nat.add_comm 1 i]
    · refine List.map_congr_left fun i hi => ?_
      rw [List.mem_range] at hi
      simp only [Function.comp_apply, hcell]
      rw [if_neg (by omega), if_pos (by omega),
        show plan.outletY + (turn + i + 1 - turn) = plan.outletY + 1 + i by omega]
  · refine List.map_congr_left fun i hi => ?_
    rw [List.mem_range] at hi
    simp only [Function.comp_apply, hcell]
    rw [if_neg (by omega), if_neg (by omega),
      show width * 30 / 100 + (turn + drop + i + 1) - drop = plan.bend width + 1 + i by omega]

/-- The three pieces of the river. -/
theorem riverCell_cases (plan : CandidatePlan) (width i : Nat) :
    (i ≤ plan.bend width - width * 30 / 100 ∧
      plan.riverCell width i = (width * 30 / 100 + i, plan.outletY)) ∨
    (plan.bend width - width * 30 / 100 < i ∧
      i ≤ plan.bend width - width * 30 / 100 + (plan.sourceY - plan.outletY) ∧
      plan.riverCell width i =
        (plan.bend width, plan.outletY + (i - (plan.bend width - width * 30 / 100)))) ∨
    (plan.bend width - width * 30 / 100 + (plan.sourceY - plan.outletY) < i ∧
      plan.riverCell width i =
        (width * 30 / 100 + i - (plan.sourceY - plan.outletY), plan.sourceY)) := by
  unfold CandidatePlan.riverCell
  dsimp only
  by_cases hfirst : i ≤ plan.bend width - width * 30 / 100
  · rw [if_pos hfirst]
    exact .inl ⟨hfirst, rfl⟩
  · rw [if_neg hfirst]
    by_cases hsecond : i ≤ plan.bend width - width * 30 / 100 + (plan.sourceY - plan.outletY)
    · rw [if_pos hsecond]
      exact .inr (.inl ⟨by omega, hsecond, rfl⟩)
    · rw [if_neg hsecond]
      exact .inr (.inr ⟨by omega, rfl⟩)

section cells

variable (hfits : plan.Fits height) (hwidth : 32 ≤ width)
include hfits hwidth

/-- Where the river is: inland of the coast line, in the rows from the outlet to the source. -/
theorem riverCell_bounds {i : Nat} (hi : i < plan.riverLength width) :
    width * 30 / 100 ≤ (plan.riverCell width i).1 ∧ (plan.riverCell width i).1 ≤ width - 2 ∧
      plan.outletY ≤ (plan.riverCell width i).2 ∧ (plan.riverCell width i).2 ≤ plan.sourceY ∧
      ((plan.riverCell width i).2 = plan.outletY ∨
        width * 30 / 100 + width / 4 ≤ (plan.riverCell width i).1) := by
  obtain ⟨-, hlow, hhigh⟩ := bend_bounds hfits.tie hwidth
  have hsource := hfits.source
  unfold CandidatePlan.riverLength at hi
  rcases riverCell_cases plan width i with ⟨h, heq⟩ | ⟨h, h', heq⟩ | ⟨h, heq⟩
  · rw [heq]
    dsimp only
    omega
  · rw [heq]
    dsimp only
    omega
  · rw [heq]
    dsimp only
    omega

/-- A river tile is at most as far inland as its number and its row allow. -/
theorem le_riverCell (i : Nat) :
    i ≤ (plan.riverCell width i).1 - width * 30 / 100 + 3 ∧
      ((plan.riverCell width i).2 = plan.outletY →
        i ≤ (plan.riverCell width i).1 - width * 30 / 100) := by
  obtain ⟨-, hlow, hhigh⟩ := bend_bounds hfits.tie hwidth
  have hsource := hfits.source
  rcases riverCell_cases plan width i with ⟨h, heq⟩ | ⟨h, h', heq⟩ | ⟨h, heq⟩
  · rw [heq]
    dsimp only
    omega
  · rw [heq]
    dsimp only
    omega
  · rw [heq]
    dsimp only
    omega

/-- Only consecutive tiles of the river touch. -/
theorem riverCell_adjacent (i j : Nat) :
    fdManhattan (plan.riverCell width i).1 (plan.riverCell width i).2
        (plan.riverCell width j).1 (plan.riverCell width j).2 = 1 ↔ i + 1 = j ∨ j + 1 = i := by
  obtain ⟨-, hlow, hhigh⟩ := bend_bounds hfits.tie hwidth
  have hsource := hfits.source
  rw [fdManhattan_eq_one_iff]
  rcases riverCell_cases plan width i with ⟨h, heq⟩ | ⟨h, h', heq⟩ | ⟨h, heq⟩ <;>
    rcases riverCell_cases plan width j with ⟨k, heq'⟩ | ⟨k, k', heq'⟩ | ⟨k, heq'⟩ <;>
      rw [heq, heq'] <;> dsimp only <;> omega

theorem riverCell_inj {i j : Nat} (heq : plan.riverCell width i = plan.riverCell width j) :
    i = j := by
  obtain ⟨-, hlow, hhigh⟩ := bend_bounds hfits.tie hwidth
  have hsource := hfits.source
  rcases riverCell_cases plan width i with ⟨h, hcell⟩ | ⟨h, h', hcell⟩ | ⟨h, hcell⟩ <;>
    rcases riverCell_cases plan width j with ⟨k, hcell'⟩ | ⟨k, k', hcell'⟩ | ⟨k, hcell'⟩ <;>
      rw [hcell, hcell', Prod.mk.injEq] at heq <;> omega

end cells

end course

end FrontierDirectorate
