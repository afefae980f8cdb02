import Mathlib
import FrontierDirectorate.Lib.Checks
import FrontierDirectorate.Core.OverlayGraph

/-!
# The road check

The scan picks the end with the lower index, so the walk may run in either
direction along the corridor.
-/
namespace FrontierDirectorate
open Checks InducedPath

/-- What the scan demands of one tile. -/
structure World.RoadTile (world : World) (index : Nat) : Prop where
  degree : world.hasOverlay index fdTileOverlayRoadCandidate →
    (world.near fdTileOverlayRoadCandidate index).length = 1 ∨
      (world.near fdTileOverlayRoadCandidate index).length = 2
  ground : world.hasOverlay index fdTileOverlayRoadCandidate →
    world.terrain index ≠ fdTerrainWater
  crossing : world.hasOverlay index fdTileRoadCrossing →
    world.hasOverlay index fdTileOverlayRoadCandidate ∧ world.hasOverlay index fdTileOverlayRiver

section scan

variable {world : World}

/-- What the scan counts at a tile that passes. -/
def roadCount (world : World) (s : RoadScan) (index : Nat) : RoadScan :=
  let road := world.hasOverlay index fdTileOverlayRoadCandidate
  let isEnd := world.isEnd fdTileOverlayRoadCandidate index && road
  { count := if road then s.count + 1 else s.count
    endpoints := if isEnd then s.endpoints + 1 else s.endpoints
    start := if isEnd ∧ s.start = uint32Max then index else s.start
    explicitCrossings := if world.hasOverlay index fdTileRoadCrossing && road
      then s.explicitCrossings + 1 else s.explicitCrossings
    riverIntersections := if world.hasOverlay index fdTileOverlayRiver && road
      then s.riverIntersections + 1 else s.riverIntersections }

theorem roadScanStep_eq_some_iff (hbounds : world.boundsHold) {index : Nat}
    (hindex : index < world.tileCount) (s t : RoadScan) :
    roadScanStep world s index = some t ↔ world.RoadTile index ∧ roadCount world s index = t := by
  have htile : world.RoadTile index ↔
      (world.hasOverlay index fdTileOverlayRoadCandidate →
        ((world.near fdTileOverlayRoadCandidate index).length = 1 ∨
          (world.near fdTileOverlayRoadCandidate index).length = 2)) ∧
      (world.hasOverlay index fdTileOverlayRoadCandidate →
        world.terrain index ≠ fdTerrainWater) ∧
      (world.hasOverlay index fdTileRoadCrossing →
        world.hasOverlay index fdTileOverlayRoadCandidate ∧
          world.hasOverlay index fdTileOverlayRiver) :=
    ⟨fun ⟨h1, h2, h3⟩ => ⟨h1, h2, h3⟩, fun ⟨h1, h2, h3⟩ => ⟨h1, h2, h3⟩⟩
  rw [htile]
  unfold roadScanStep roadCount World.isEnd
  by_cases hroad : world.hasOverlay index fdTileOverlayRoadCandidate
  · have hdegree := degree_eq hbounds ⟨hindex, hroad⟩ uint32Max
    simp only [hdegree, hroad, if_true]
    generalize (world.near fdTileOverlayRoadCandidate index).length = degree
    by_cases hwater : world.terrain index = fdTerrainWater
    · simp [hwater]
    · by_cases hone : degree = 1
      · subst hone
        by_cases hcrossing : world.hasOverlay index fdTileRoadCrossing
        · by_cases hriver : world.hasOverlay index fdTileOverlayRiver
          · simp [hwater, hcrossing, hriver]
          · simp [hwater, hcrossing, hriver]
        · simp [hwater, hcrossing]
      · by_cases hcrossing : world.hasOverlay index fdTileRoadCrossing
        · by_cases hriver : world.hasOverlay index fdTileOverlayRiver
          · simp [hwater, hone, hcrossing, hriver]
          · simp [hwater, hone, hcrossing, hriver]
        · simp [hwater, hone, hcrossing]
  · by_cases hcrossing : world.hasOverlay index fdTileRoadCrossing
    · simp [hroad, hcrossing]
    · simp [hroad, hcrossing]

/-- The counters are lengths, the start is the first end of the scan. -/
theorem foldl_roadCount (xs : List Nat) (hxs : ∀ index ∈ xs, index ≠ uint32Max) :
    xs.foldl (roadCount world) ⟨0, 0, uint32Max, 0, 0⟩ =
      let tiles := xs.filter (world.hasOverlay · fdTileOverlayRoadCandidate)
      { count := tiles.length
        endpoints := (tiles.filter (world.isEnd fdTileOverlayRoadCandidate)).length
        start := (tiles.filter (world.isEnd fdTileOverlayRoadCandidate)).headD uint32Max
        explicitCrossings := (tiles.filter (world.hasOverlay · fdTileRoadCrossing)).length
        riverIntersections := (tiles.filter (world.hasOverlay · fdTileOverlayRiver)).length } := by
  have hcount : (xs.foldl (roadCount world) ⟨0, 0, uint32Max, 0, 0⟩).count = _ :=
    (List.foldl_hom RoadScan.count fun _ _ => rfl).symm.trans (foldl_count
      (world.hasOverlay · fdTileOverlayRoadCandidate) xs 0)
  have hends : (xs.foldl (roadCount world) ⟨0, 0, uint32Max, 0, 0⟩).endpoints = _ :=
    (List.foldl_hom RoadScan.endpoints fun _ _ => rfl).symm.trans (foldl_count
      (fun index => world.isEnd fdTileOverlayRoadCandidate index &&
        world.hasOverlay index fdTileOverlayRoadCandidate) xs 0)
  have hstart : (xs.foldl (roadCount world) ⟨0, 0, uint32Max, 0, 0⟩).start = _ :=
    (List.foldl_hom RoadScan.start fun _ _ => rfl).symm.trans (foldl_first
      (fun index => world.isEnd fdTileOverlayRoadCandidate index &&
        world.hasOverlay index fdTileOverlayRoadCandidate) xs uint32Max hxs)
  have hcrossings : (xs.foldl (roadCount world) ⟨0, 0, uint32Max, 0, 0⟩).explicitCrossings = _ :=
    (List.foldl_hom RoadScan.explicitCrossings fun _ _ => rfl).symm.trans (foldl_count
      (fun index => world.hasOverlay index fdTileRoadCrossing &&
        world.hasOverlay index fdTileOverlayRoadCandidate) xs 0)
  have hrivers : (xs.foldl (roadCount world) ⟨0, 0, uint32Max, 0, 0⟩).riverIntersections = _ :=
    (List.foldl_hom RoadScan.riverIntersections fun _ _ => rfl).symm.trans (foldl_count
      (fun index => world.hasOverlay index fdTileOverlayRiver &&
        world.hasOverlay index fdTileOverlayRoadCandidate) xs 0)
  rw [← List.filter_filter] at hends hstart hcrossings hrivers
  rw [Nat.zero_add] at hcount hends hcrossings hrivers
  simp only [← hcount, ← hends, ← hstart, ← hcrossings, ← hrivers]

/-- The scan over the whole map. -/
theorem roadScan_eq_some_iff (hbounds : world.boundsHold) (t : RoadScan) :
    (List.range world.tileCount).foldlM (roadScanStep world) ⟨0, 0, uint32Max, 0, 0⟩ = some t ↔
      (∀ index < world.tileCount, world.RoadTile index) ∧
        t = let tiles := world.overlayTiles fdTileOverlayRoadCandidate
          { count := tiles.length
            endpoints := (tiles.filter (world.isEnd fdTileOverlayRoadCandidate)).length
            start := (tiles.filter (world.isEnd fdTileOverlayRoadCandidate)).headD uint32Max
            explicitCrossings := (tiles.filter (world.hasOverlay · fdTileRoadCrossing)).length
            riverIntersections :=
              (tiles.filter (world.hasOverlay · fdTileOverlayRiver)).length } := by
  have hstep : ∀ index ∈ List.range world.tileCount, ∀ s t, roadScanStep world s index = some t ↔
      world.RoadTile index ∧ roadCount world s index = t :=
    fun index hindex => roadScanStep_eq_some_iff hbounds (List.mem_range.mp hindex)
  have hmax : ∀ index ∈ List.range world.tileCount, index ≠ uint32Max := by
    rintro index hindex rfl
    exact absurd (hbounds.lt_max (List.mem_range.mp hindex)) (by decide)
  rw [foldlM_eq_some_iff hstep, foldl_roadCount _ hmax]
  simp only [List.mem_range, eq_comm (b := t)]
  rfl

end scan

/-- The river entries counted along the tiles of a walk. -/
def riverEntries (world : World) : Bool → Nat → List Nat → Nat
  | _, entries, [] => entries
  | previousRiver, entries, next :: rest =>
      let nextRiver := world.hasOverlay next fdTileOverlayRiver
      riverEntries world nextRiver (if nextRiver ∧ ¬ previousRiver then entries + 1 else entries)
        rest

section walk

variable {world : World}

theorem riverEntries_of_dry (rest : List Nat) (river : Bool) (entries : Nat)
    (h : rest.filter (world.hasOverlay · fdTileOverlayRiver) = []) :
    riverEntries world river entries rest = entries := by
  induction rest generalizing river with
  | nil => rfl
  | cons next rest ih =>
      obtain ⟨hnext, hrest⟩ := List.forall_mem_cons.mp (List.filter_eq_nil_iff.mp h)
      rw [riverEntries, if_neg (fun hboth => hnext hboth.1)]
      exact ih _ (List.filter_eq_nil_iff.mpr hrest)

/-- From a dry tile, a path with at most one river tile enters the river once for it. -/
theorem riverEntries_eq (rest : List Nat) (entries : Nat)
    (h : (rest.filter (world.hasOverlay · fdTileOverlayRiver)).length ≤ 1) :
    riverEntries world false entries rest =
      entries + (rest.filter (world.hasOverlay · fdTileOverlayRiver)).length := by
  induction rest with
  | nil => rfl
  | cons next rest ih =>
      rw [riverEntries]
      by_cases hnext : world.hasOverlay next fdTileOverlayRiver
      · rw [List.filter_cons_of_pos (p := (world.hasOverlay · fdTileOverlayRiver)) hnext,
          List.length_cons] at h ⊢
        have hdry := List.length_eq_zero_iff.mp (Nat.le_zero.mp (Nat.succ_le_succ_iff.mp h))
        rw [riverEntries_of_dry rest _ _ hdry, hdry, if_pos ⟨hnext, Bool.false_ne_true⟩]
        rfl
      · rw [List.filter_cons_of_neg (p := (world.hasOverlay · fdTileOverlayRiver)) hnext] at h ⊢
        rw [if_neg (fun hboth => hnext hboth.1), Bool.eq_false_iff.mpr hnext]
        exact ih h

/-- One turn of the walk, by the neighbours that are left. -/
theorem roadWalk_eq (left previous current : Nat) (previousRiver : Bool) (entries : Nat) :
    roadWalk world left previous current previousRiver entries =
      match (world.near fdTileOverlayRoadCandidate current).filter (· ≠ previous) with
      | [] => if left = 0 then some (current, entries) else none
      | [next] =>
          let nextRiver := world.hasOverlay next fdTileOverlayRiver
          match left with
          | 0 => none
          | left + 1 => roadWalk world left current next nextRiver
              (if nextRiver ∧ ¬ previousRiver then entries + 1 else entries)
      | _ :: _ :: _ => none := by
  rw [roadWalk.eq_def, neighborCount_eq]
  rcases (world.near fdTileOverlayRoadCandidate current).filter (· ≠ previous) with
    _ | ⟨next, _ | _⟩
  · rfl
  · cases left <;> simp
  · simp

/-- The walk succeeds along a path of the right length. -/
theorem roadWalk_eq_some_iff {left previous current last : Nat} {previousRiver : Bool}
    {entries total : Nat} :
    roadWalk world left previous current previousRiver entries = some (last, total) ↔ ∃ rest,
      Walk (world.near fdTileOverlayRoadCandidate) previous (current :: rest) ∧
        rest.length = left ∧ (current :: rest).getLast? = some last ∧
          riverEntries world previousRiver entries rest = total := by
  induction left generalizing previous current previousRiver entries with
  | zero =>
      rw [roadWalk_eq]
      constructor
      · intro h
        split at h
        · next hleft =>
            cases h
            exact ⟨[], .stop hleft, rfl, rfl, rfl⟩
        · cases h
        · cases h
      · rintro ⟨rest, hwalk, hlength, hlast, htotal⟩
        obtain rfl := List.length_eq_zero_iff.mp hlength
        cases hwalk with
        | stop hleft =>
            cases hlast
            cases htotal
            rw [hleft]
            rfl
  | succ left ih =>
      rw [roadWalk_eq]
      constructor
      · intro h
        split at h
        · cases h
        · next next hleft =>
            obtain ⟨rest, hwalk, hlength, hlast, htotal⟩ := ih.mp h
            refine ⟨next :: rest, .step hleft hwalk, congrArg (· + 1) hlength, ?_, htotal⟩
            rw [List.getLast?_cons_cons]
            exact hlast
        · cases h
      · rintro ⟨rest, hwalk, hlength, hlast, htotal⟩
        cases hwalk with
        | stop hleft => cases hlength
        | @step _ _ next rest hleft hrest =>
            rw [List.getLast?_cons_cons] at hlast
            rw [hleft]
            exact ih.mpr ⟨rest, hrest, Nat.succ_inj.mp hlength, hlast, htotal⟩

end walk

/-- A single corridor from the coastal to the inland settlement. -/
structure World.Corridor (world : World) (path : List Nat) : Prop where
  onMap : world.settlementsOnMap
  tiles : world.InducedPath fdTileOverlayRoadCandidate path
  length : 2 ≤ path.length
  first : path.head? = some world.coastalIndex
  last : path.getLast? = some world.inlandIndex
  ground : ∀ index ∈ path, world.terrain index ≠ fdTerrainWater
  river : (path.filter (world.hasOverlay · fdTileOverlayRiver)).length ≤ 1
  crossing : ∀ index < world.tileCount, world.hasOverlay index fdTileRoadCrossing ↔
    world.hasOverlay index fdTileOverlayRoadCandidate ∧
      world.hasOverlay index fdTileOverlayRiver

section recognition

variable {world : World}

/-- The check, with the scan and the walk taken apart. -/
theorem fdValidateRoad_eq_some (hbounds : world.boundsHold) {count crossings : Nat} :
    let tiles := world.overlayTiles fdTileOverlayRoadCandidate
    let start := (tiles.filter (world.isEnd fdTileOverlayRoadCandidate)).headD uint32Max
    fdValidateRoad world = some (count, crossings) ↔ world.settlementsOnMap ∧
      (∀ index < world.tileCount, world.RoadTile index) ∧ tiles.length = count ∧ 2 ≤ count ∧
      (tiles.filter (world.isEnd fdTileOverlayRoadCandidate)).length = 2 ∧
      (tiles.filter (world.hasOverlay · fdTileRoadCrossing)).length = crossings ∧
      (tiles.filter (world.hasOverlay · fdTileOverlayRiver)).length = crossings ∧
      crossings ≤ 1 ∧
      world.hasOverlay world.coastalIndex fdTileOverlayRoadCandidate ∧
      world.hasOverlay world.inlandIndex fdTileOverlayRoadCandidate ∧
      ∃ last, roadWalk world (count - 1) uint32Max start
          (world.hasOverlay start fdTileOverlayRiver) 0 = some (last, crossings) ∧
        ((start = world.coastalIndex ∧ last = world.inlandIndex) ∨
          (start = world.inlandIndex ∧ last = world.coastalIndex)) := by
  intro tiles start
  have hscan := roadScan_eq_some_iff hbounds
  unfold fdValidateRoad
  by_cases hmap : world.settlementsOnMap
  · rw [if_neg (not_not.mpr hmap)]
    constructor
    · intro h
      obtain ⟨s, hs, hrest⟩ := Option.bind_eq_some_iff.mp h
      obtain ⟨htiles, rfl⟩ := (hscan s).mp hs
      split at hrest
      · cases hrest
      · next hcounts =>
          simp only [not_or, not_lt, ne_eq, not_not] at hcounts
          obtain ⟨hcount, hends, hexplicit, hriver, hcoastal, hinland⟩ := hcounts
          obtain ⟨⟨last, total⟩, hwalk, hlast⟩ := Option.bind_eq_some_iff.mp hrest
          simp only at hlast
          split at hlast
          · cases hlast
          · next hjoined =>
              split at hlast
              · cases hlast
              · next hcross =>
                  cases hlast
                  simp only [not_or, not_lt, ne_eq, not_not] at hcross
                  obtain ⟨hone, hsame, htotal⟩ := hcross
                  exact ⟨hmap, htiles, rfl, hcount, hends, hsame.trans htotal.symm, htotal.symm,
                    hone, hcoastal, hinland, last, hwalk, not_not.mp hjoined⟩
    · rintro ⟨-, htiles, rfl, hcount, hends, hexplicit, hriver, hone, hcoastal, hinland, last,
        hwalk, hjoined⟩
      apply Option.bind_eq_some_iff.mpr
      refine ⟨_, (hscan _).mpr ⟨htiles, rfl⟩, ?_⟩
      rw [if_neg (by
        simp only [not_or, not_lt, ne_eq, not_not]
        exact ⟨hcount, hends, hexplicit.le.trans hone, hriver.le.trans hone, hcoastal, hinland⟩)]
      apply Option.bind_eq_some_iff.mpr
      refine ⟨(last, crossings), hwalk, ?_⟩
      simp only
      rw [if_neg (not_not.mpr hjoined), if_neg (by
        simp only [not_or, not_lt, ne_eq, not_not]
        exact ⟨hone, hexplicit.trans hriver.symm, hriver.symm⟩)]
  · rw [if_pos hmap]
    constructor
    · intro h
      cases h
    · rintro ⟨h, -⟩
      exact absurd h hmap

/-- On the tiles that pass the scan, equal counts put a crossing on every river tile of the road. -/
theorem crossing_of_counts (hroad : ∀ index < world.tileCount, world.RoadTile index)
    (hcounts : ((world.overlayTiles fdTileOverlayRoadCandidate).filter
        (world.hasOverlay · fdTileRoadCrossing)).length =
      ((world.overlayTiles fdTileOverlayRoadCandidate).filter
        (world.hasOverlay · fdTileOverlayRiver)).length)
    {index : Nat} (hindex : index < world.tileCount) : world.hasOverlay index fdTileRoadCrossing ↔
      world.hasOverlay index fdTileOverlayRoadCandidate ∧
        world.hasOverlay index fdTileOverlayRiver := by
  constructor
  · exact (hroad index hindex).crossing
  · rintro ⟨hbit, hriver⟩
    have hsub : (world.overlayTiles fdTileOverlayRoadCandidate).filter
        (world.hasOverlay · fdTileRoadCrossing) =
        ((world.overlayTiles fdTileOverlayRoadCandidate).filter
          (world.hasOverlay · fdTileOverlayRiver)).filter
            (world.hasOverlay · fdTileRoadCrossing) := by
      rw [List.filter_filter]
      apply List.filter_congr
      intro near hnear
      have hlt := (mem_overlayTiles.mp hnear).1
      rw [Bool.eq_iff_iff, Bool.and_eq_true]
      exact ⟨fun h => ⟨h, ((hroad near hlt).crossing h).2⟩, fun h => h.1⟩
    rw [hsub, List.length_filter_eq_length_iff] at hcounts
    apply hcounts index
    rw [List.mem_filter, mem_overlayTiles]
    exact ⟨⟨hindex, hbit⟩, hriver⟩

/-- A map that passes the check has a corridor with the reported counts. -/
theorem corridor_of_check (hbounds : world.boundsHold) {count crossings : Nat}
    (h : fdValidateRoad world = some (count, crossings)) : ∃ path, world.Corridor path ∧
      path.length = count ∧
      (path.filter (world.hasOverlay · fdTileOverlayRiver)).length = crossings := by
  obtain ⟨hmap, htiles, hlength, hcount, hends, hexplicit, hriver, hone, -, -, last, hwalk,
    hjoined⟩ := (fdValidateRoad_eq_some hbounds).mp h
  obtain ⟨start, other, hlist⟩ := List.length_eq_two.mp hends
  have hstart : world.Carries fdTileOverlayRoadCandidate start := by
    apply mem_overlayTiles.mp
    apply List.mem_of_mem_filter (p := world.isEnd fdTileOverlayRoadCandidate)
    rw [hlist]
    exact List.mem_cons_self
  rw [hlist, List.headD_cons] at hwalk hjoined
  obtain ⟨rest, hpath, hrest, hlast, -⟩ := roadWalk_eq_some_iff.mp hwalk
  have hlen : (start :: rest).length = count := by
    rw [List.length_cons, hrest]
    omega
  have htile := inducedPath_of_walk hbounds hstart rfl hpath (by rw [hlen, hlength])
  -- the walk may have run from the inland end
  obtain ⟨path, hpath, hends⟩ : ∃ path, world.InducedPath fdTileOverlayRoadCandidate path ∧
      path.head? = some world.coastalIndex ∧ path.getLast? = some world.inlandIndex := by
    rcases hjoined with ⟨rfl, rfl⟩ | ⟨rfl, rfl⟩
    · exact ⟨_, htile, rfl, hlast⟩
    · exact ⟨_, htile.reverse, by rw [List.head?_reverse, hlast], List.getLast?_reverse⟩
  have hlength : path.length = count := hpath.perm.length_eq.trans hlength
  have hrivers : (path.filter (world.hasOverlay · fdTileOverlayRiver)).length = crossings :=
    (hpath.perm.filter _).length_eq.trans hriver
  refine ⟨path, ⟨hmap, hpath, hlength ▸ hcount, hends.1, hends.2, ?_, hrivers ▸ hone, ?_⟩,
    hlength, hrivers⟩
  · intro index hindex
    obtain ⟨hlt, hbit⟩ := (hpath.mem_iff index).mp hindex
    exact (htiles index hlt).ground hbit
  · intro index hindex
    exact crossing_of_counts htiles (hexplicit.trans hriver.symm) hindex

/-- The walk along a corridor, from either end. -/
theorem roadWalk_of_path (hbounds : world.boundsHold) {start last : Nat} {rest : List Nat}
    (h : world.InducedPath fdTileOverlayRoadCandidate (start :: rest))
    (hlast : (start :: rest).getLast? = some last)
    (hdry : ¬ world.hasOverlay start fdTileOverlayRiver)
    (hone : ((start :: rest).filter (world.hasOverlay · fdTileOverlayRiver)).length ≤ 1) :
    roadWalk world ((start :: rest).length - 1) uint32Max start
      (world.hasOverlay start fdTileOverlayRiver) 0 =
        some (last, ((start :: rest).filter (world.hasOverlay · fdTileOverlayRiver)).length) := by
  rw [List.filter_cons_of_neg (p := (world.hasOverlay · fdTileOverlayRiver)) hdry] at hone ⊢
  apply roadWalk_eq_some_iff.mpr
  refine ⟨rest, ?_, rfl, hlast, ?_⟩
  · exact h.induced.walk (overlayNeighbourhood hbounds) (List.cons_ne_nil _ _) h.mem_iff
      (max_not_carries hbounds)
  · rw [Bool.eq_false_iff.mpr hdry, riverEntries_eq rest 0 hone, Nat.zero_add]

/-- Every corridor between dry settlements passes the check. -/
theorem check_of_corridor (hbounds : world.boundsHold) {path : List Nat} (h : world.Corridor path)
    (hcoastal : ¬ world.hasOverlay world.coastalIndex fdTileOverlayRiver)
    (hinland : ¬ world.hasOverlay world.inlandIndex fdTileOverlayRiver) :
    fdValidateRoad world = some (path.length,
      (path.filter (world.hasOverlay · fdTileOverlayRiver)).length) := by
  obtain ⟨first, middle, last, rfl⟩ := exists_ends h.length
  have hfirst : first = world.coastalIndex := Option.some_inj.mp h.first
  have hlast : last = world.inlandIndex := by
    have hgetLast := h.last
    rw [← List.cons_append, List.getLast?_concat] at hgetLast
    exact Option.some_inj.mp hgetLast
  have hreverse : (first :: (middle ++ [last])).reverse = last :: (first :: middle).reverse := by
    rw [← List.cons_append, List.reverse_append, List.reverse_singleton, List.singleton_append]
  have hends : ((world.overlayTiles fdTileOverlayRoadCandidate).filter
      (world.isEnd fdTileOverlayRoadCandidate)).Perm [first, last] := by
    rw [← h.tiles.filter_isEnd hbounds]
    exact (h.tiles.perm.filter _).symm
  have hfirstMem : world.Carries fdTileOverlayRoadCandidate first :=
    (h.tiles.mem_iff first).mp List.mem_cons_self
  have hlastMem : world.Carries fdTileOverlayRoadCandidate last :=
    (h.tiles.mem_iff last).mp (by simp)
  have hcrossings : ((world.overlayTiles fdTileOverlayRoadCandidate).filter
      (world.hasOverlay · fdTileRoadCrossing)) =
      ((world.overlayTiles fdTileOverlayRoadCandidate).filter
        (world.hasOverlay · fdTileOverlayRiver)) := by
    apply List.filter_congr
    intro index hindex
    obtain ⟨hlt, hbit⟩ := mem_overlayTiles.mp hindex
    rw [Bool.eq_iff_iff, h.crossing index hlt]
    exact and_iff_right hbit
  have hrivers := (h.tiles.perm.filter (world.hasOverlay · fdTileOverlayRiver)).length_eq
  apply (fdValidateRoad_eq_some hbounds).mpr
  refine ⟨h.onMap, ?_, h.tiles.perm.length_eq.symm, h.length, h.tiles.count_ends hbounds, ?_,
    hrivers.symm, h.river, hfirst ▸ hfirstMem.2, hlast ▸ hlastMem.2, ?_⟩
  · intro index hindex
    refine ⟨fun hbit => h.tiles.degree hbounds ⟨hindex, hbit⟩, ?_, (h.crossing index hindex).mp⟩
    intro hbit
    exact h.ground index ((h.tiles.mem_iff index).mpr ⟨hindex, hbit⟩)
  · rw [hcrossings]
    exact hrivers.symm
  · -- the end with the lower index is the start
    obtain ⟨start, other, hlist⟩ := List.length_eq_two.mp hends.length_eq
    rw [hlist] at hends ⊢
    rw [List.headD_cons]
    have hmem : start ∈ [first, last] := hends.mem_iff.mp List.mem_cons_self
    rw [List.mem_cons, List.mem_singleton] at hmem
    rcases hmem with rfl | rfl
    · refine ⟨last, ?_, .inl ⟨hfirst, hlast⟩⟩
      exact roadWalk_of_path hbounds h.tiles (by rw [← List.cons_append, List.getLast?_concat])
        (hfirst ▸ hcoastal) h.river
    · refine ⟨first, ?_, .inr ⟨hlast, hfirst⟩⟩
      have hback := h.tiles.reverse
      have hriver := h.river
      rw [← (List.reverse_perm _).length_eq, ← List.filter_reverse] at hriver
      rw [← List.length_reverse, ← (List.reverse_perm (List.filter _ _)).length_eq,
        ← List.filter_reverse]
      rw [hreverse] at hback hriver ⊢
      apply roadWalk_of_path hbounds hback _ (hlast ▸ hinland) hriver
      rw [List.reverse_cons, ← List.cons_append, List.getLast?_concat]

end recognition

end FrontierDirectorate
