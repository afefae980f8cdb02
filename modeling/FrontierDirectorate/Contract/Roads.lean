import Mathlib
import FrontierDirectorate.Core.Candidate
import FrontierDirectorate.Core.RoadSearchLaws
import FrontierDirectorate.Core.RoadTraceLaws
import FrontierDirectorate.Core.TilePass
import FrontierDirectorate.Contract.Saves

/-!
# The canonical road

`fd_construct_road` finds a cheapest path over land. Among the cheapest ones it is the
path that goes back from the goal by the lowest index, whatever order the heap gives.
-/
namespace FrontierDirectorate
open ShortestPath

/-- A step over land. -/
def World.LandStep (world : World) (index next : Nat) : Prop :=
  world.Land index ∧ world.Land next ∧ world.Adjacent index next

section costs

variable {draws : Draws} {attempt : UInt64} {world : World}

/-- What a ground costs before the surcharges. -/
def roadBase (terrain : UInt32) : Option Nat :=
  if terrain = fdTerrainSettlement then some 1
  else if terrain = fdTerrainGrassland then some 2
  else if terrain = fdTerrainForest then some 4
  else if terrain = fdTerrainHills then some 7
  else if terrain = fdTerrainWetlands then some 8
  else none

theorem roadBase_some {terrain : UInt32} {base : Nat} (h : roadBase terrain = some base) :
    0 < base ∧ base ≤ 8 ∧ terrain ≠ fdTerrainWater := by
  unfold roadBase at h
  split_ifs at h with h1 h2 h3 h4 h5
  all_goals
    obtain rfl := Option.some.inj h
    refine ⟨by decide, by decide, ?_⟩
    rintro rfl
    contradiction

theorem roadBase_none {terrain : UInt32} (h : roadBase terrain = none)
    (hknown : fdTerrainWater ≤ terrain ∧ terrain ≤ fdTerrainSettlement) :
    terrain = fdTerrainWater := by
  unfold roadBase at h
  split_ifs at h with h1 h2 h3 h4 h5
  grind

theorem fdRoadCost_eq (draws : Draws) (attempt : UInt64) (world : World) (index : Nat) :
    fdRoadCost draws attempt world index = (roadBase (world.terrain index)).elim uint32Max
      fun base => (if world.hasOverlay index fdTileOverlayRiver then base + 20 else base) +
        if draws.word fdRngDomainRoadCandidate (UInt64.ofNat index) attempt 0 fdRngSiteRoadTie <
          0x80000000 then 0 else 1 := by
  unfold fdRoadCost roadBase
  dsimp only
  split_ifs <;> rfl

theorem fdRoadCost_of_none {index : Nat} (h : roadBase (world.terrain index) = none) :
    fdRoadCost draws attempt world index = uint32Max := by
  rw [fdRoadCost_eq, h, Option.elim_none]

/-- Every ground but water has a cost, up to 29 for wetlands under a river. -/
theorem fdRoadCost_of_base (draws : Draws) (attempt : UInt64) {index base : Nat}
    (h : roadBase (world.terrain index) = some base) :
    0 < fdRoadCost draws attempt world index ∧ fdRoadCost draws attempt world index ≤ 29 := by
  obtain ⟨hpos, hle, -⟩ := roadBase_some h
  rw [fdRoadCost_eq, h, Option.elim_some]
  split <;> split <;> omega

theorem fdRoadCost_bounds {index : Nat} (h : fdRoadCost draws attempt world index ≠ uint32Max) :
    0 < fdRoadCost draws attempt world index ∧ fdRoadCost draws attempt world index ≤ 29 := by
  cases hbase : roadBase (world.terrain index) with
  | none => exact absurd (fdRoadCost_of_none hbase) h
  | some base => exact fdRoadCost_of_base draws attempt hbase

/-- On known ground only water cannot be entered. -/
theorem fdRoadCost_open {index : Nat} (h : world.KnownTerrain index) :
    fdRoadCost draws attempt world index ≠ uint32Max ↔ world.terrain index ≠ fdTerrainWater := by
  cases hbase : roadBase (world.terrain index) with
  | none =>
      exact iff_of_false (not_not.mpr (fdRoadCost_of_none hbase))
        (not_not.mpr (roadBase_none hbase h))
  | some base =>
      obtain ⟨-, hle⟩ := fdRoadCost_of_base draws attempt hbase
      exact iff_of_true (hle.trans_lt (by decide)).ne (roadBase_some hbase).2.2

theorem mem_roadNeighbors {width height index near : Nat} :
    near ∈ roadNeighbors width height index ↔ near ∈ neighbors width height index := by
  unfold roadNeighbors
  rw [mem_neighbors]
  simp only [List.mem_append, mem_ite_singleton]
  tauto

/-- The steps of the search are the steps over land. -/
theorem enters_eq (hbounds : world.boundsHold)
    (hknown : ∀ index < world.tileCount, world.KnownTerrain index) :
    Enters world.tileCount (fdRoadCost draws attempt world)
      (roadNeighbors world.width world.height) = world.LandStep := by
  funext index next
  apply propext
  have hnear : ∀ index < world.tileCount, ∀ next,
      next ∈ roadNeighbors world.width world.height index ↔
        next < world.tileCount ∧ world.Adjacent index next :=
    fun index hindex next => mem_roadNeighbors.trans (hbounds.mem_neighbors hindex)
  constructor
  · rintro ⟨⟨hindex, hopen⟩, hmem, hnext⟩
    obtain ⟨hlt, hadjacent⟩ := (hnear index hindex next).mp hmem
    exact ⟨⟨hindex, (fdRoadCost_open (hknown index hindex)).mp hopen⟩,
      ⟨hlt, (fdRoadCost_open (hknown next hlt)).mp hnext⟩, hadjacent⟩
  · rintro ⟨⟨hindex, hopen⟩, ⟨hlt, hnext⟩, hadjacent⟩
    exact ⟨⟨hindex, (fdRoadCost_open (hknown index hindex)).mpr hopen⟩,
      (hnear index hindex next).mpr ⟨hlt, hadjacent⟩, (fdRoadCost_open (hknown next hlt)).mpr hnext⟩

theorem roadGrid (draws : Draws) (attempt : UInt64) (hbounds : world.boundsHold) :
    RoadGrid world.tileCount (fdRoadCost draws attempt world)
      (roadNeighbors world.width world.height) where
  small := hbounds.2.2.2.2.2
  near := fun _ hindex _ hnext => hbounds.neighbors_lt hindex (mem_roadNeighbors.mp hnext)
  cost := fun _ h => fdRoadCost_bounds h

end costs

/-- A path over land from the goal back to the start, as cheap as any, that always goes on to the
lowest tile it can and nowhere touches itself. -/
structure World.CheapestRoad (world : World) (cost : Nat → Nat) (start goal : Nat)
    (path : List Nat) : Prop where
  cheapest : ∃ total, Way world.LandStep cost start goal path total ∧
    IsDist world.LandStep cost start goal total
  canonical : Canonical world.LandStep cost start goal path
  induced : InducedPath.Induced world.Adjacent path

section road

variable {world : World} {start goal : Nat}

theorem World.LandStep.symm {index next : Nat} (h : world.LandStep index next) :
    world.LandStep next index := ⟨h.2.1, h.1, h.2.2.symm⟩

/-- A cheapest way over land touches itself only from one tile to the next. -/
theorem induced_of_way {cost : Nat → Nat} (hcost : ∀ index, world.Land index → 0 < cost index)
    (hstart : world.Land start) {path : List Nat} {total : Nat}
    (hway : Way world.LandStep cost start goal path total)
    (hdist : IsDist world.LandStep cost start goal total) :
    InducedPath.Induced world.Adjacent path := by
  have hland := hway.forall_mem hstart fun _ _ hstep => hstep.2.1
  have hinduced := hway.induced (fun _ _ hstep => hcost _ hstep.2.1)
    (fun _ _ => World.LandStep.symm) (fun _ hstep => hstep.2.2.ne rfl) hdist
  refine ⟨hinduced.nodup, fun i j hi hj => ?_⟩
  rw [← hinduced.adjacent_iff i j hi hj]
  exact ⟨fun h => ⟨hland _ (List.getElem_mem hi), hland _ (List.getElem_mem hj), h⟩, fun h => h.2.2⟩

/-- The road from a land tile to a goal, on a map without roads and with memory for the search. If
no path over land leads to the goal, the map is left as it is. Otherwise the road goes along the
canonical cheapest path, if that crosses at most one river tile, and ends at the second if not. -/
theorem road_is_canonical (world : World) (context : FdContext) (draws : Draws) (attempt : UInt64)
    (s : Ledger) (start goal : Nat) (hbounds : world.boundsHold)
    (hknown : ∀ index < world.tileCount, world.KnownTerrain index) (hfree : world.RoadFree)
    (hstart : world.Land start)
    (hgrants : context.Grants s 4 (UInt64.ofNat (world.tileCount * 4))) :
    (∀ index, world.Land index → 1 ≤ fdRoadCost draws attempt world index) ∧
    (¬ world.LandPath start goal → (fdConstructRoad context draws world start goal attempt s).1 =
      .error ⟨world, fdErrGenerationExhausted⟩) ∧
    (world.LandPath start goal →
      ∃ path, world.CheapestRoad (fdRoadCost draws attempt world) start goal path ∧
        ((world.rivers path).length ≤ 1 → ∃ paved, world.RoadLaid paved path ∧
          (fdConstructRoad context draws world start goal attempt s).1 = .ok paved) ∧
        (1 < (world.rivers path).length → ∃ traced, world.UpToSecond 0 path traced ∧
          (fdConstructRoad context draws world start goal attempt s).1 =
            .error ⟨world.addOverlays fdTileOverlayRoadCandidate traced,
              fdErrGenerationExhausted⟩)) := by
  have hcost : ∀ index, world.Land index → 1 ≤ fdRoadCost draws attempt world index := by
    intro index hindex
    exact (fdRoadCost_bounds ((fdRoadCost_open (hknown index hindex.1)).mpr hindex.2)).1
  have hopen : Enterable world.tileCount (fdRoadCost draws attempt world) start :=
    ⟨hstart.1, (fdRoadCost_open (hknown start hstart.1)).mpr hstart.2⟩
  obtain ⟨t, hsearch, hend⟩ := RoadSearch.searchRoad_spec
    (roadGrid draws attempt hbounds) hopen goal
  rw [constructRoad_granted hbounds hgrants, roadOver, hsearch]
  refine ⟨hcost, fun hapart => ?_, fun hjoined => ?_⟩
  · rcases hend with ⟨hnone, -⟩ | ⟨path, hfound⟩
    · exact if_pos hnone
    · have hway := hfound.way.reachable
      rw [enters_eq hbounds hknown] at hway
      exact absurd hway hapart
  · rcases hend with ⟨-, hnone⟩ | ⟨path, hfound⟩
    · rw [enters_eq hbounds hknown] at hnone
      exact absurd hjoined hnone
    · have hcanonical := hfound.canonical
      have hway := hfound.way
      have hdist := hfound.dist
      rw [enters_eq hbounds hknown] at hcanonical hway hdist
      have hinduced := induced_of_way hcost hstart hway hdist
      have hland := hway.forall_mem hstart fun _ _ hstep => hstep.2.1
      have hlength : path.length ≤ world.tileCount := by
        have hsub := List.subperm_of_subset hinduced.nodup fun i hi =>
          List.mem_range.mpr (hland i hi).1
        exact hsub.length_le.trans_eq List.length_range
      have hmax : ∀ i ∈ path, i ≠ uint32Max := by
        intro i hi
        exact ((hbounds.lt_max (hland i hi).1).trans (by decide)).ne
      have hleft := hlength.trans (Nat.le_succ world.tileCount)
      have hmet : crossed uint32Max + (world.rivers path).length = (world.rivers path).length :=
        Nat.zero_add _
      refine ⟨path, ⟨⟨_, hway, hdist⟩, hcanonical, hinduced⟩, fun hrivers => ?_, fun hrivers => ?_⟩
      · have htrace := traceRoad_ok hfound.traced hmax world 0 hleft (hmet.trans_le hrivers)
        have hcount := hlength.trans_lt
          (hbounds.2.2.2.2.2.trans_lt (show fdMaxTiles < 4294967296 by decide))
        refine ⟨_, roadLaid_of_rivers hfree (fun i hi => (hland i hi).1) hmax hrivers hcount, ?_⟩
        refine (if_neg hfound.reached).trans ?_
        rw [htrace, Nat.zero_add]
        rfl
      · obtain ⟨traced, hsecond, htrace⟩ :=
          traceRoad_exhausted hfound.traced hmax world 0 hleft (hrivers.trans_eq hmet.symm)
        refine ⟨traced, hsecond, (if_neg hfound.reached).trans ?_⟩
        rw [htrace]
        rfl

/-- The ground of two shores of grass on either side of a strait. -/
def straitTile (rivers : List Nat) (index : Nat) : Tile where
  elevationCm := 100
  rainfallMm := 0
  settlementId := 0
  terrain := if index % 32 = 16 then fdTerrainWater else fdTerrainGrassland
  overlays := if index ∈ rivers then fdTileOverlayRiver else 0

def strait (rivers : List Nat) : World :=
  { sampleMap with tiles := (List.range 512).map (straitTile rivers) }

section strait

variable {rivers : List Nat}

theorem strait_tileCount : (strait rivers).tileCount = 512 := by
  rw [World.tileCount, strait, List.length_map, List.length_range]

theorem strait_tile {index : Nat} (h : index < 512) :
    (strait rivers).tile index = straitTile rivers index := by
  rw [World.tile, strait, List.getD_eq_getElem?_getD, List.getElem?_map, List.getElem?_range h]
  rfl

theorem strait_bounds : (strait rivers).boundsHold := by
  unfold World.boundsHold
  rw [strait_tileCount]
  have hconfig : (strait rivers).config = sampleConfig := rfl
  rw [World.width, World.height, hconfig]
  decide

theorem strait_terrain {index : Nat} (h : index < 512) : (strait rivers).terrain index =
    if index % 32 = 16 then fdTerrainWater else fdTerrainGrassland :=
  congrArg Tile.terrain (strait_tile h)

theorem strait_overlays {index : Nat} (h : index < 512) : ((strait rivers).tile index).overlays =
    if index ∈ rivers then fdTileOverlayRiver else 0 :=
  congrArg Tile.overlays (strait_tile h)

theorem strait_known {index : Nat} (h : index < (strait rivers).tileCount) :
    (strait rivers).KnownTerrain index := by
  rw [strait_tileCount] at h
  have hterrain : ((strait rivers).tile index).terrain = _ := strait_terrain h
  rw [World.KnownTerrain, hterrain]
  split <;> decide

theorem strait_roadFree : (strait rivers).RoadFree := by
  intro index h
  rw [strait_tileCount] at h
  rw [strait_overlays h]
  split <;> decide

theorem strait_land {index : Nat} : (strait rivers).Land index ↔ index < 512 ∧ index % 32 ≠ 16 := by
  rw [World.Land, strait_tileCount]
  refine and_congr_right fun h => ?_
  rw [strait_terrain h]
  by_cases hwater : index % 32 = 16
  · rw [if_pos hwater]
    exact iff_of_false (not_not.mpr rfl) (not_not.mpr hwater)
  · rw [if_neg hwater]
    exact iff_of_true (by decide) hwater

theorem strait_river {index : Nat} (h : index < 512) :
    (strait rivers).hasOverlay index fdTileOverlayRiver = true ↔ index ∈ rivers := by
  rw [World.hasOverlay, strait_overlays h]
  by_cases hriver : index ∈ rivers
  · rw [if_pos hriver]
    exact iff_of_true (by decide) hriver
  · rw [if_neg hriver]
    exact iff_of_false (by decide) hriver

/-- The west shore is all that can be reached from it. -/
theorem strait_west {start index : Nat} (hstart : start % 32 < 16)
    (h : (strait rivers).LandPath start index) : index % 32 < 16 := by
  induction h with
  | refl => exact hstart
  | @tail near next _ hstep ih =>
      obtain ⟨-, hland, hadjacent⟩ := hstep
      have hwater := (strait_land.mp hland).2
      have hcolumns : fdManhattan (near % 32) (near / 32) (next % 32) (next / 32) = 1 := hadjacent
      have hnear := fdManhattan_eq_one_iff.mp hcolumns
      omega

theorem strait_corner : (strait rivers).LandPath 0 33 := by
  have hwidth : (strait rivers).width = 32 := rfl
  have hfirst : (strait rivers).Adjacent 0 1 := by
    rw [World.Adjacent, hwidth]
    decide
  have hsecond : (strait rivers).Adjacent 1 33 := by
    rw [World.Adjacent, hwidth]
    decide
  exact (Relation.ReflTransGen.single
    ⟨strait_land.mpr (by decide), strait_land.mpr (by decide), hfirst⟩).tail
      ⟨strait_land.mpr (by decide), strait_land.mpr (by decide), hsecond⟩

/-- A road has no more river tiles than the map, and the ends that are river tiles. -/
theorem strait_rivers {cost : Nat → Nat} {goal : Nat} {path : List Nat}
    (h : (strait rivers).CheapestRoad cost 0 goal path) :
    ((strait rivers).rivers path).length ≤ rivers.length ∧
      (rivers = [0, goal] → goal ≠ 0 → 1 < ((strait rivers).rivers path).length) := by
  obtain ⟨total, hway, -⟩ := h.cheapest
  have hland := hway.forall_mem (strait_land.mpr (by decide)) fun _ _ hstep => hstep.2.1
  have hmem : ∀ i, i ∈ (strait rivers).rivers path ↔ i ∈ path ∧ i ∈ rivers := by
    intro i
    rw [World.rivers, List.mem_filter]
    exact and_congr_right fun hi => strait_river (strait_land.mp (hland i hi)).1
  constructor
  · have hsub := List.subperm_of_subset (h.induced.nodup.filter _) fun i hi => ((hmem i).mp hi).2
    exact hsub.length_le
  · rintro rfl hne
    have hends : [0, goal] ⊆ (strait [0, goal]).rivers path := by
      intro i hi
      refine (hmem i).mpr ⟨?_, hi⟩
      rcases List.mem_pair.mp hi with rfl | rfl
      · exact hway.ends.1
      · exact hway.ends.2
    have hnodup : [0, goal].Nodup := by simpa using hne.symm
    exact (List.subperm_of_subset hnodup hends).length_le

/-- The road of a strait with the draws of its own scope. -/
def straitRoad (rivers : List Nat) (goal : Nat) : Except Halted World :=
  (fdConstructRoad sampleContext (strait rivers).rngScope.draws (strait rivers) 0 goal 0
    Ledger.zero).1

/-- A road to a river tile crosses there; a river at both ends is one too many; the other shore
is out of reach. -/
theorem road_is_canonical_strait :
    (∃ path paved, (strait [33]).CheapestRoad
        (fdRoadCost (strait [33]).rngScope.draws 0 (strait [33])) 0 33 path ∧
      (strait [33]).RoadLaid paved path ∧ straitRoad [33] 33 = .ok paved) ∧
    (∃ traced, straitRoad [0, 33] 33 = .error
      ⟨(strait [0, 33]).addOverlays fdTileOverlayRoadCandidate traced, fdErrGenerationExhausted⟩) ∧
    straitRoad [] 31 = .error ⟨strait [], fdErrGenerationExhausted⟩ := by
  have hland : ∀ rivers, (strait rivers).Land 0 := fun rivers => strait_land.mpr (by decide)
  refine ⟨?_, ?_, ?_⟩
  · obtain ⟨-, -, hroad⟩ := road_is_canonical (strait [33]) sampleContext
      (strait [33]).rngScope.draws 0 Ledger.zero 0 33 strait_bounds (fun _ => strait_known)
      strait_roadFree (hland [33]) fun _ _ => rfl
    obtain ⟨path, hcheapest, hlaid, -⟩ := hroad strait_corner
    obtain ⟨paved, hpaved, hbuilt⟩ := hlaid (strait_rivers hcheapest).1
    exact ⟨path, paved, hcheapest, hpaved, hbuilt⟩
  · obtain ⟨-, -, hroad⟩ := road_is_canonical (strait [0, 33]) sampleContext
      (strait [0, 33]).rngScope.draws 0 Ledger.zero 0 33 strait_bounds (fun _ => strait_known)
      strait_roadFree (hland [0, 33]) fun _ _ => rfl
    obtain ⟨path, hcheapest, -, hexhausted⟩ := hroad strait_corner
    obtain ⟨traced, -, hbuilt⟩ := hexhausted ((strait_rivers hcheapest).2 rfl (by decide))
    exact ⟨traced, hbuilt⟩
  · obtain ⟨-, hapart, -⟩ := road_is_canonical (strait []) sampleContext
      (strait []).rngScope.draws 0 Ledger.zero 0 31 strait_bounds (fun _ => strait_known)
      strait_roadFree (hland []) fun _ _ => rfl
    exact hapart fun hpath => absurd (strait_west (by decide) hpath) (by decide)

end strait

end road

end FrontierDirectorate
