import Mathlib
import FrontierDirectorate.Core.Terrain
import FrontierDirectorate.Lib.IndexedHeap

/-!
# The road corridor

`fd_construct_road`: a shortest path over the tiles with an indexed heap, traced
back from the goal into the road bits of the map.
-/
namespace FrontierDirectorate

abbrev FdHeap := IndexedHeap.Heap Nat

/-- Nearer tiles first, ties by index. -/
def fdHeapLess (distances : Nat → Nat) (leftNode rightNode : Nat) : Bool :=
  decide (distances leftNode < distances rightNode ∨
    (distances leftNode = distances rightNode ∧ leftNode < rightNode))

/-- The four arrays of the search; `UINT32_MAX` marks what is not reached yet. -/
structure RoadSearch where
  distances : Nat → Nat
  previous : Nat → Nat
  heap : FdHeap

namespace RoadSearch

def fdHeapInsert (s : RoadSearch) (node : Nat) : RoadSearch :=
  { s with heap := s.heap.insert (fdHeapLess s.distances) node }

def fdHeapUp (s : RoadSearch) (position : Nat) : RoadSearch :=
  { s with heap := s.heap.up (fdHeapLess s.distances) position }

def fdHeapPop (s : RoadSearch) : Nat × RoadSearch :=
  let popped := s.heap.pop (fdHeapLess s.distances)
  (popped.1, { s with heap := popped.2 })

end RoadSearch

/-- The cost of entering a tile; water cannot be entered. -/
def fdRoadCost (draws : Draws) (attempt : UInt64) (world : World) (index : Nat) : Nat :=
  let terrain := world.terrain index
  let base :=
    if terrain = fdTerrainSettlement then some 1
    else if terrain = fdTerrainGrassland then some 2
    else if terrain = fdTerrainForest then some 4
    else if terrain = fdTerrainHills then some 7
    else if terrain = fdTerrainWetlands then some 8
    else none
  match base with
  | none => uint32Max
  | some base =>
      let base := if world.hasOverlay index fdTileOverlayRiver then base + 20 else base
      let random := draws.word fdRngDomainRoadCandidate (UInt64.ofNat index) attempt 0
        fdRngSiteRoadTie
      base + if random < 0x80000000 then 0 else 1

def fdRelaxRoadNeighbor (cost : Nat → Nat) (current : Nat) (s : RoadSearch) (neighbor : Nat) :
    RoadSearch :=
  let entering := cost neighbor
  if entering = uint32Max ∨ s.distances current = uint32Max ∨
      uint32Max - entering < s.distances current then s
  else
    let candidate := s.distances current + entering
    if candidate < s.distances neighbor ∨
        (candidate = s.distances neighbor ∧ current < s.previous neighbor) then
      let s := { s with
        distances := Function.update s.distances neighbor candidate
        previous := Function.update s.previous neighbor current }
      match s.heap.positions neighbor with
      | none => s.fdHeapInsert neighbor
      | some position => s.fdHeapUp position
    else s

/-- The on-map neighbours in the order the search relaxes them: up, left, right, down. -/
def roadNeighbors (width height index : Nat) : List Nat :=
  (if 0 < index / width then [index - width] else []) ++
  (if 0 < index % width then [index - 1] else []) ++
  (if index % width + 1 < width then [index + 1] else []) ++
  (if index / width + 1 < height then [index + width] else [])

/-- The search before its first round. -/
def startRoadSearch (start : Nat) : RoadSearch :=
  let s : RoadSearch :=
    { distances := Function.update (fun _ => uint32Max) start 0
      previous := fun _ => uint32Max
      heap := ⟨fun _ => 0, fun _ => none, 0⟩ }
  s.fdHeapInsert start

/-- The rounds of the search. It ends when the heap is empty or the goal is popped; `none` means
that `rounds` were not enough. -/
def searchRoad (cost : Nat → Nat) (adjacent : Nat → List Nat) (goal : Nat) :
    (rounds : Nat) → RoadSearch → Option RoadSearch
  | rounds, s =>
    if s.heap.size = 0 then some s
    else
      match rounds with
      | 0 => none
      | rounds + 1 =>
        let (current, s) := s.fdHeapPop
        if current = goal then some s
        else searchRoad cost adjacent goal rounds
          ((adjacent current).foldl (fdRelaxRoadNeighbor cost current) s)

/-- The trace from `current` back to `start`, with the tile count and the river tile met; `left`
is `tile_count - count`. -/
def traceRoad (previous : Nat → Nat) (start : Nat) :
    (left : Nat) → (world : World) → (current count intersection : Nat) →
    Except Halted (World × Nat × Nat)
  | left, world, current, count, intersection =>
    let world := world.modifyTile current fun tile =>
      { tile with overlays := tile.overlays ||| fdTileOverlayRoadCandidate }
    let river := world.hasOverlay current fdTileOverlayRiver
    if river ∧ intersection ≠ uint32Max then .error ⟨world, fdErrGenerationExhausted⟩
    else
      let intersection := if river then current else intersection
      if current = start then .ok (world, count + 1, intersection)
      else if previous current = uint32Max then .error ⟨world, fdErrInternal⟩
      else
        match left with
        | 0 => .error ⟨world, fdErrInternal⟩
        | left + 1 => traceRoad previous start left world (previous current) (count + 1) intersection

def markCrossing (world : World) (intersection : Nat) : World :=
  if intersection ≠ uint32Max then
    world.modifyTile intersection fun tile =>
      { tile with overlays := tile.overlays ||| fdTileRoadCrossing }
  else world

/-- What `fd_construct_road` does once it has its arrays. -/
def roadOver (cost : Nat → Nat) (world : World) (start goal : Nat) : Except Halted World :=
  match searchRoad cost (roadNeighbors world.width world.height) goal (world.tileCount + 1)
      (startRoadSearch start) with
  -- unreachable: every round settles another tile
  | none => .error ⟨world, fdErrInternal⟩
  | some s =>
      if s.distances goal = uint32Max then .error ⟨world, fdErrGenerationExhausted⟩
      else do
        let (world, count, intersection) ←
          traceRoad s.previous start world.tileCount world goal 0 uint32Max
        return { markCrossing world intersection with roadTileCount := UInt32.ofNat count }

def fdConstructRoad (context : FdContext) (draws : Draws) (world : World) (start goal : Nat)
    (attempt : UInt64) : StateM Ledger (Except Halted World) := do
  let arrayBytes := UInt64.ofNat (world.tileCount * 4)
  let distances ← fdContextAlloc context arrayBytes
  let previous ← fdContextAlloc context arrayBytes
  let positions ← fdContextAlloc context arrayBytes
  let nodes ← fdContextAlloc context arrayBytes
  let built := if distances && previous && positions && nodes then
      roadOver (fdRoadCost draws attempt world) world start goal
    else .error ⟨world, fdErrOutOfMemory⟩
  fdContextFree distances arrayBytes
  fdContextFree previous arrayBytes
  fdContextFree positions arrayBytes
  fdContextFree nodes arrayBytes
  return built

end FrontierDirectorate
