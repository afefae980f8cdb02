import Mathlib
import FrontierDirectorate.Lib.Checks
import FrontierDirectorate.Lib.Loops
import FrontierDirectorate.Core.OverlayGraph
import FrontierDirectorate.Core.TilePass

/-!
# The river check

The scan counts the river tiles while it tests them, the walk follows them up
from the outlet.
-/
namespace FrontierDirectorate
open Checks InducedPath Loops

/-- What the scan demands of one tile. -/
structure World.RiverTile (world : World) (index : Nat) : Prop where
  degree : world.hasOverlay index fdTileOverlayRiver →
    (world.near fdTileOverlayRiver index).length = 1 ∨
      (world.near fdTileOverlayRiver index).length = 2
  ground : world.hasOverlay index fdTileOverlayRiver →
    world.terrain index ≠ fdTerrainWater ∧ world.terrain index ≠ fdTerrainSettlement
  outlet : world.hasOverlay index fdTileRiverOutlet →
    world.hasOverlay index fdTileOverlayRiver ∧ fdAdjacentTerrain world index fdTerrainWater ∧
      (world.near fdTileOverlayRiver index).length = 1

section scan

variable {world : World}

/-- What the scan counts at a tile that passes. -/
def riverCount (world : World) (s : RiverScan) (index : Nat) : RiverScan where
  count := if world.hasOverlay index fdTileOverlayRiver then s.count + 1 else s.count
  endpoints := if world.hasOverlay index fdTileOverlayRiver ∧ world.isEnd fdTileOverlayRiver index
    then s.endpoints + 1 else s.endpoints
  outletCount := if world.hasOverlay index fdTileRiverOutlet then s.outletCount + 1
    else s.outletCount
  outlet := if world.hasOverlay index fdTileRiverOutlet then index else s.outlet

theorem riverScanStep_eq_some_iff (hbounds : world.boundsHold) {index : Nat}
    (hindex : index < world.tileCount) (s t : RiverScan) :
    riverScanStep world s index = some t ↔
      world.RiverTile index ∧ riverCount world s index = t := by
  have htile : world.RiverTile index ↔
      (world.hasOverlay index fdTileOverlayRiver →
        ((world.near fdTileOverlayRiver index).length = 1 ∨
          (world.near fdTileOverlayRiver index).length = 2)) ∧
      (world.hasOverlay index fdTileOverlayRiver →
        world.terrain index ≠ fdTerrainWater ∧ world.terrain index ≠ fdTerrainSettlement) ∧
      (world.hasOverlay index fdTileRiverOutlet → world.hasOverlay index fdTileOverlayRiver ∧
        fdAdjacentTerrain world index fdTerrainWater ∧
          (world.near fdTileOverlayRiver index).length = 1) :=
    ⟨fun ⟨h1, h2, h3⟩ => ⟨h1, h2, h3⟩, fun ⟨h1, h2, h3⟩ => ⟨h1, h2, h3⟩⟩
  rw [htile]
  unfold riverScanStep riverCount World.isEnd
  by_cases hriver : world.hasOverlay index fdTileOverlayRiver
  · have hdegree := degree_eq hbounds ⟨hindex, hriver⟩ uint32Max
    simp only [hdegree, hriver, if_true]
    generalize (world.near fdTileOverlayRiver index).length = degree
    by_cases houtlet : world.hasOverlay index fdTileRiverOutlet
    · simp only [houtlet, if_true]
      by_cases hone : degree = 1
      · subst hone
        by_cases hwater : fdAdjacentTerrain world index fdTerrainWater
        · by_cases hground : world.terrain index = fdTerrainWater ∨
              world.terrain index = fdTerrainSettlement
          · simp [hground]
            tauto
          · simp [hground, hwater]
            tauto
        · simp [hwater]
      · simp [hone]
    · by_cases hone : degree = 1
      · subst hone
        simp [houtlet]
      · simp [houtlet, hone, and_assoc]
  · by_cases houtlet : world.hasOverlay index fdTileRiverOutlet
    · simp [hriver, houtlet]
    · simp [hriver, houtlet]

/-- The counters are lengths, the outlet is the last outlet tile. -/
theorem foldl_riverCount (xs : List Nat) (s : RiverScan) : xs.foldl (riverCount world) s =
    { count := s.count + (xs.filter (world.hasOverlay · fdTileOverlayRiver)).length
      endpoints := s.endpoints + ((xs.filter (world.hasOverlay · fdTileOverlayRiver)).filter
        (world.isEnd fdTileOverlayRiver)).length
      outletCount := s.outletCount + (xs.filter (world.hasOverlay · fdTileRiverOutlet)).length
      outlet := (xs.filter (world.hasOverlay · fdTileRiverOutlet)).getLastD s.outlet } := by
  have hcount : (xs.foldl (riverCount world) s).count = xs.foldl (fun n index =>
      if world.hasOverlay index fdTileOverlayRiver then n + 1 else n) s.count :=
    (List.foldl_hom RiverScan.count fun _ _ => rfl).symm
  have hends : (xs.foldl (riverCount world) s).endpoints = xs.foldl (fun n index =>
      if world.isEnd fdTileOverlayRiver index && world.hasOverlay index fdTileOverlayRiver
      then n + 1 else n) s.endpoints := by
    apply (List.foldl_hom RiverScan.endpoints _).symm
    intro s index
    simp only [riverCount, Bool.and_eq_true, and_comm]
  have houtlets : (xs.foldl (riverCount world) s).outletCount = xs.foldl (fun n index =>
      if world.hasOverlay index fdTileRiverOutlet then n + 1 else n) s.outletCount :=
    (List.foldl_hom RiverScan.outletCount fun _ _ => rfl).symm
  have houtlet : (xs.foldl (riverCount world) s).outlet = xs.foldl (fun outlet index =>
      if world.hasOverlay index fdTileRiverOutlet then index else outlet) s.outlet :=
    (List.foldl_hom RiverScan.outlet fun _ _ => rfl).symm
  rw [foldl_count] at hcount hends houtlets
  rw [foldl_last] at houtlet
  rw [← List.filter_filter] at hends
  rw [← hcount, ← hends, ← houtlets, ← houtlet]

/-- The scan over the whole map. -/
theorem riverScan_eq_some_iff (hbounds : world.boundsHold) (t : RiverScan) :
    (List.range world.tileCount).foldlM (riverScanStep world) ⟨0, 0, 0, uint32Max⟩ = some t ↔
      (∀ index < world.tileCount, world.RiverTile index) ∧
        t = { count := (world.overlayTiles fdTileOverlayRiver).length
              endpoints := ((world.overlayTiles fdTileOverlayRiver).filter
                (world.isEnd fdTileOverlayRiver)).length
              outletCount := (world.overlayTiles fdTileRiverOutlet).length
              outlet := (world.overlayTiles fdTileRiverOutlet).getLastD uint32Max } := by
  have hstep : ∀ index ∈ List.range world.tileCount, ∀ s t, riverScanStep world s index = some t ↔
      world.RiverTile index ∧ riverCount world s index = t :=
    fun index hindex => riverScanStep_eq_some_iff hbounds (List.mem_range.mp hindex)
  rw [foldlM_eq_some_iff hstep, foldl_riverCount]
  simp only [List.mem_range, Nat.zero_add, eq_comm (b := t)]
  rfl

/-- The bound on the distance to the sea, tile by tile. -/
theorem le_minimumWaterDistance_iff {bound x y : Nat} (hbound : bound ≤ uint32Max) :
    bound ≤ minimumWaterDistance world x y ↔ ∀ index < world.tileCount,
      world.terrain index = fdTerrainWater →
        bound ≤ fdManhattan x y (index % world.width) (index / world.width) := by
  have hfold : ∀ (xs : List Nat) (minimum : Nat), bound ≤ xs.foldl (fun minimum index =>
      if world.terrain index = fdTerrainWater then
        let distance := fdManhattan x y (index % world.width) (index / world.width)
        if distance < minimum then distance else minimum
      else minimum) minimum ↔ bound ≤ minimum ∧ ∀ index ∈ xs,
        world.terrain index = fdTerrainWater →
          bound ≤ fdManhattan x y (index % world.width) (index / world.width) := by
    intro xs
    induction xs with
    | nil => simp
    | cons index xs ih =>
        intro minimum
        rw [List.foldl_cons, ih, List.forall_mem_cons]
        by_cases hwater : world.terrain index = fdTerrainWater
        · simp only [hwater, if_true, true_imp_iff, ← and_assoc]
          apply and_congr_left
          intro _
          split <;> omega
        · simp [hwater]
  rw [minimumWaterDistance, hfold]
  simp only [List.mem_range, hbound, true_and]

end scan

/-- Uphill from one tile to the next. -/
def World.Rising (world : World) (index next : Nat) : Prop :=
  (world.tile index).elevationCm < (world.tile next).elevationCm

section walk

variable {world : World}

/-- One turn of the walk, by the neighbours that are left. -/
theorem riverWalk_eq (left previous current : Nat) : riverWalk world left previous current =
    match (world.near fdTileOverlayRiver current).filter (· ≠ previous) with
    | [] => if left = 0 then some current else none
    | [next] =>
        if (world.tile next).elevationCm ≤ (world.tile current).elevationCm then none
        else
          match left with
          | 0 => none
          | left + 1 => riverWalk world left current next
    | _ :: _ :: _ => none := by
  rw [riverWalk.eq_def, neighborCount_eq]
  rcases (world.near fdTileOverlayRiver current).filter (· ≠ previous) with _ | ⟨next, _ | _⟩
  · rfl
  · cases left <;> simp
  · simp

/-- The walk succeeds along a rising path of the right length. -/
theorem riverWalk_eq_some_iff {left previous current source : Nat} :
    riverWalk world left previous current = some source ↔ ∃ rest,
      Walk (world.near fdTileOverlayRiver) previous (current :: rest) ∧ rest.length = left ∧
        (current :: rest).IsChain world.Rising ∧ (current :: rest).getLast? = some source := by
  induction left generalizing previous current with
  | zero =>
      rw [riverWalk_eq]
      constructor
      · intro h
        split at h
        · next hleft =>
            exact ⟨[], .stop hleft, rfl, .singleton _, h⟩
        · split at h <;> cases h
        · cases h
      · rintro ⟨rest, hwalk, hlength, -, hlast⟩
        obtain rfl := List.length_eq_zero_iff.mp hlength
        cases hwalk with
        | stop hleft =>
            rw [hleft]
            exact hlast
  | succ left ih =>
      rw [riverWalk_eq]
      constructor
      · intro h
        split at h
        · cases h
        · next next hleft =>
            split at h
            · cases h
            · next hrise =>
                obtain ⟨rest, hwalk, hlength, hchain, hlast⟩ := ih.mp h
                refine ⟨next :: rest, .step hleft hwalk, congrArg (· + 1) hlength, ?_, ?_⟩
                · exact .cons_cons (Int32.not_le.mp hrise) hchain
                · rw [List.getLast?_cons_cons]
                  exact hlast
        · cases h
      · rintro ⟨rest, hwalk, hlength, hchain, hlast⟩
        cases hwalk with
        | stop hleft => cases hlength
        | @step _ _ next rest hleft hrest =>
            rw [List.isChain_cons_cons] at hchain
            rw [List.getLast?_cons_cons] at hlast
            rw [hleft]
            have hrise : ¬ (world.tile next).elevationCm ≤ (world.tile current).elevationCm :=
              Int32.not_le.mpr hchain.1
            simp only [if_neg hrise]
            exact ih.mpr ⟨rest, hrest, Nat.succ_inj.mp hlength, hchain.2, hlast⟩

/-- Locals of `while (true)`. -/
structure WalkLocals where
  visited : Nat
  previous : Nat
  current : Nat

/-- One turn of the walk as the loop is written. -/
def riverTurn (world : World) (count : Nat) (s : WalkLocals) : Turn WalkLocals (Option Nat) :=
  let step := fdNeighborCountWithOverlay world s.current fdTileOverlayRiver s.previous uint32Max
  if step.1 = 0 then .done (if s.visited ≠ count then none else some s.current)
  else if step.1 ≠ 1 ∨
      (world.tile step.2).elevationCm ≤ (world.tile s.current).elevationCm then .done none
  else if count < s.visited + 1 then .done none
  else .again ⟨s.visited + 1, s.current, step.2⟩

theorem riverTurn_eq (count : Nat) (s : WalkLocals) : riverTurn world count s =
    match (world.near fdTileOverlayRiver s.current).filter (· ≠ s.previous) with
    | [] => .done (if s.visited ≠ count then none else some s.current)
    | [next] =>
        if (world.tile next).elevationCm ≤ (world.tile s.current).elevationCm then .done none
        else if count < s.visited + 1 then .done none
        else .again ⟨s.visited + 1, s.current, next⟩
    | _ :: _ :: _ => .done none := by
  rw [riverTurn, neighborCount_eq]
  rcases (world.near fdTileOverlayRiver s.current).filter (· ≠ s.previous) with _ | ⟨next, _ | _⟩
  · rfl
  · simp only [List.length_singleton, List.getLastD_cons, List.getLastD_nil, Nat.one_ne_zero,
      if_false, ne_eq, not_true_eq_false, false_or]
  · simp

/-- The loop ends, and with the result of the bounded walk. -/
theorem riverTurn_runs (count : Nat) (s : WalkLocals) (hvisited : s.visited ≤ count) :
    Runs (riverTurn world count) s
      (riverWalk world (count - s.visited) s.previous s.current) := by
  induction hleft : count - s.visited generalizing s with
  | zero =>
      have heq : s.visited = count := by omega
      apply Runs.done
      rw [riverTurn_eq, riverWalk_eq, heq]
      split
      · simp
      · split <;> simp
      · rfl
  | succ left ih =>
      have hne : s.visited ≠ count := by omega
      have hcount : ¬ count < s.visited + 1 := by omega
      have hturn := @riverTurn_eq world count s
      rw [riverWalk_eq]
      split at hturn
      · apply Runs.done
        rw [hturn, if_pos hne, if_neg (Nat.succ_ne_zero left)]
      · next next _ =>
          split at hturn
          · next hrise =>
              apply Runs.done
              rw [hturn, if_pos hrise]
          · next hrise =>
              rw [if_neg hrise]
              apply Runs.again hturn
              exact ih ⟨s.visited + 1, s.current, next⟩ (Nat.not_lt.mp hcount) (by simp only; omega)
      · exact .done hturn

end walk

/-- A single river: its tiles from the outlet at the sea up to the source in the hills. -/
structure World.RisingRiver (world : World) (path : List Nat) : Prop where
  tiles : world.InducedPath fdTileOverlayRiver path
  length : 9 ≤ path.length
  rising : path.Pairwise world.Rising
  ground : ∀ index ∈ path,
    world.terrain index ≠ fdTerrainWater ∧ world.terrain index ≠ fdTerrainSettlement
  outlet : ∀ index < world.tileCount,
    world.hasOverlay index fdTileRiverOutlet ↔ path.head? = some index
  mouth : ∀ index ∈ path.head?, ∃ near < world.tileCount,
    world.Adjacent index near ∧ world.terrain near = fdTerrainWater
  source : ∀ index ∈ path.getLast?, world.terrain index = fdTerrainHills ∧
    ∀ water < world.tileCount, world.terrain water = fdTerrainWater →
      8 ≤ fdManhattan (index % world.width) (index / world.width)
        (water % world.width) (water / world.width)

section recognition

variable {world : World}

instance : Trans world.Rising world.Rising world.Rising := ⟨Int32.lt_trans⟩

/-- A tile next to the sea. -/
theorem adjacentWater_iff (hbounds : world.boundsHold) {index : Nat}
    (hindex : index < world.tileCount) : fdAdjacentTerrain world index fdTerrainWater ↔
      ∃ near < world.tileCount, world.Adjacent index near ∧
        world.terrain near = fdTerrainWater := by
  rw [adjacentTerrain_iff]
  constructor
  · rintro ⟨near, hnear, hwater⟩
    obtain ⟨hlt, hadjacent⟩ := (hbounds.mem_neighbors hindex).mp hnear
    exact ⟨near, hlt, hadjacent, hwater⟩
  · rintro ⟨near, hlt, hadjacent, hwater⟩
    exact ⟨near, (hbounds.mem_neighbors hindex).mpr ⟨hlt, hadjacent⟩, hwater⟩

/-- The check, with the scan and the walk taken apart. -/
theorem fdValidateRiver_eq_some (hbounds : world.boundsHold) {count outlet : Nat} :
    fdValidateRiver world = some (count, outlet) ↔
      (∀ index < world.tileCount, world.RiverTile index) ∧
      (world.overlayTiles fdTileOverlayRiver).length = count ∧ 9 ≤ count ∧
      ((world.overlayTiles fdTileOverlayRiver).filter
        (world.isEnd fdTileOverlayRiver)).length = 2 ∧
      world.overlayTiles fdTileRiverOutlet = [outlet] ∧
      ∃ source, riverWalk world (count - 1) uint32Max outlet = some source ∧
        world.terrain source = fdTerrainHills ∧
        8 ≤ minimumWaterDistance world (source % world.width) (source / world.width) := by
  have hscan := riverScan_eq_some_iff hbounds
  unfold fdValidateRiver
  constructor
  · intro h
    obtain ⟨s, hs, hrest⟩ := Option.bind_eq_some_iff.mp h
    obtain ⟨htiles, rfl⟩ := (hscan s).mp hs
    split at hrest
    · cases hrest
    · next hcounts =>
        obtain ⟨hcount, hends, houtlet⟩ : 9 ≤ _ ∧ _ = 2 ∧ _ = 1 := by
          simpa only [not_or, not_lt, ne_eq, not_not] using hcounts
        obtain ⟨source, hwalk, hlast⟩ := Option.bind_eq_some_iff.mp hrest
        obtain ⟨only, hlist⟩ := List.length_eq_one_iff.mp houtlet
        simp only [hlist, List.getLastD_cons, List.getLastD_nil] at hwalk hlast
        split at hlast
        · cases hlast
        · next hhills =>
            split at hlast
            · cases hlast
            · next hdistance =>
                cases hlast
                exact ⟨htiles, rfl, hcount, hends, hlist, source, hwalk, not_not.mp hhills,
                  Nat.not_lt.mp hdistance⟩
  · rintro ⟨htiles, rfl, hcount, hends, hlist, source, hwalk, hhills, hdistance⟩
    apply Option.bind_eq_some_iff.mpr
    refine ⟨_, (hscan _).mpr ⟨htiles, rfl⟩, ?_⟩
    simp only [hlist, hends, List.length_singleton, List.getLastD_cons, List.getLastD_nil]
    rw [if_neg (by omega)]
    apply Option.bind_eq_some_iff.mpr
    refine ⟨source, hwalk, ?_⟩
    rw [if_neg (not_not.mpr hhills), if_neg (Nat.not_lt.mpr hdistance)]

/-- A map that passes the check has a river of the reported length at the reported outlet. -/
theorem risingRiver_of_check (hbounds : world.boundsHold) {count outlet : Nat}
    (h : fdValidateRiver world = some (count, outlet)) :
    ∃ path, world.RisingRiver path ∧ path.length = count ∧ path.head? = some outlet := by
  obtain ⟨htiles, hlength, hcount, -, houtlets, source, hwalk, hhills, hdistance⟩ :=
    (fdValidateRiver_eq_some hbounds).mp h
  have hmem : ∀ index, world.Carries fdTileRiverOutlet index ↔ index = outlet := by
    intro index
    rw [← mem_overlayTiles, houtlets, List.mem_singleton]
  obtain ⟨hlt, hbit⟩ := (hmem outlet).mpr rfl
  obtain ⟨hriver, hwater, -⟩ := (htiles outlet hlt).outlet hbit
  obtain ⟨rest, hpath, hrest, hchain, hlast⟩ := riverWalk_eq_some_iff.mp hwalk
  have hlen : (outlet :: rest).length = count := by
    rw [List.length_cons, hrest]
    omega
  have htile := inducedPath_of_walk hbounds ⟨hlt, hriver⟩ rfl hpath (by rw [hlen, hlength])
  refine ⟨outlet :: rest, ⟨htile, ?_, ?_, ?_, ?_, ?_, ?_⟩, hlen, rfl⟩
  · rw [hlen]
    exact hcount
  · exact List.isChain_iff_pairwise.mp hchain
  · intro index hindex
    obtain ⟨hlt, hriver⟩ := (htile.mem_iff index).mp hindex
    exact (htiles index hlt).ground hriver
  · intro index hindex
    rw [List.head?_cons, Option.some_inj, @eq_comm Nat outlet, ← hmem index]
    exact ⟨fun hbit => ⟨hindex, hbit⟩, fun hcarries => hcarries.2⟩
  · rintro _ ⟨⟩
    exact (adjacentWater_iff hbounds hlt).mp hwater
  · intro index hindex
    rw [hlast] at hindex
    cases hindex
    exact ⟨hhills, (le_minimumWaterDistance_iff (by decide)).mp hdistance⟩

/-- Every such river passes the check. -/
theorem check_of_risingRiver (hbounds : world.boundsHold) {path : List Nat}
    (h : world.RisingRiver path) {outlet : Nat} (houtlet : path.head? = some outlet) :
    fdValidateRiver world = some (path.length, outlet) := by
  obtain ⟨first, middle, last, rfl⟩ := exists_ends (Nat.le_trans (by decide) h.length)
  obtain rfl : first = outlet := Option.some_inj.mp houtlet
  have hfirst : world.Carries fdTileOverlayRiver first :=
    (h.tiles.mem_iff first).mp List.mem_cons_self
  have hmouth := (adjacentWater_iff hbounds hfirst.1).mpr (h.mouth first rfl)
  have hdegree := (h.tiles.induced.endpoints (overlayNeighbourhood hbounds) h.tiles.mem_iff).1
  have hlast : (first :: (middle ++ [last])).getLast? = some last := by
    rw [← List.cons_append, List.getLast?_concat]
  obtain ⟨hhills, hdistance⟩ := h.source last hlast
  apply (fdValidateRiver_eq_some hbounds).mpr
  refine ⟨?_, h.tiles.perm.length_eq.symm, h.length, h.tiles.count_ends hbounds, ?_, last, ?_,
    hhills, (le_minimumWaterDistance_iff (by decide)).mpr hdistance⟩
  · intro index hindex
    refine ⟨fun hriver => h.tiles.degree hbounds ⟨hindex, hriver⟩, ?_, ?_⟩
    · intro hriver
      exact h.ground index ((h.tiles.mem_iff index).mpr ⟨hindex, hriver⟩)
    · intro hbit
      obtain rfl : first = index := Option.some_inj.mp ((h.outlet index hindex).mp hbit)
      exact ⟨hfirst.2, hmouth, hdegree⟩
  · apply (eq_singleton_iff overlayTiles_nodup).mpr
    intro index
    rw [mem_overlayTiles]
    constructor
    · rintro ⟨hindex, hbit⟩
      exact (Option.some_inj.mp ((h.outlet index hindex).mp hbit)).symm
    · rintro rfl
      exact ⟨hfirst.1, (h.outlet _ hfirst.1).mpr rfl⟩
  · apply riverWalk_eq_some_iff.mpr
    refine ⟨middle ++ [last], ?_, rfl, List.isChain_iff_pairwise.mpr h.rising, hlast⟩
    exact h.tiles.induced.walk (overlayNeighbourhood hbounds) (List.cons_ne_nil _ _)
      h.tiles.mem_iff (max_not_carries hbounds)

end recognition

end FrontierDirectorate
