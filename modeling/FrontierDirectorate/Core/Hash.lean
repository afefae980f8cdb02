import Mathlib
import FrontierDirectorate.Core.Sha256

/-!
# Canonical digests

The preimages of the configuration, content, joint-decision and state digests,
piece by piece in the order the source absorbs them.
-/
namespace FrontierDirectorate
open ByteCodec

/-- A domain string preceded by its length. -/
def domainPieces (domain : String) : List (List UInt8) :=
  [fdStoreU32Le (UInt32.ofNat (asciiBytes domain).length), asciiBytes domain]

def configPieces (config : WorldConfig) : List (List UInt8) :=
  domainPieces "FrontierDirectorate/Config/v1" ++
  [config.width, config.height, config.attemptBudget, config.generatorVersion,
    config.rulesetVersion, config.forestDensityPpm, config.hillDensityPpm,
    config.wetlandDensityPpm, config.referenceMode, fdRngRegistryVersion].map fdStoreU32Le

def fdHashConfigInternal (config : WorldConfig) : Digest := sha256Pieces (configPieces config)

def packPieces (pack : ContentPack) : List (List UInt8) :=
  [fdStoreU64Le pack.stableId, pack.sha256.toList]

def contentPieces (packs : List ContentPack) : List (List UInt8) :=
  domainPieces "FrontierDirectorate/Content/v1" ++
  fdStoreU32Le (UInt32.ofNat packs.length) :: packs.flatMap packPieces

def fdHashContentInternal (packs : List ContentPack) : Digest := sha256Pieces (contentPieces packs)

def seatPieces (seat : SeatDecision) : List (List UInt8) :=
  [fdStoreU64Le seat.actorId, fdStoreU32Le seat.action.category,
    fdStoreU32Le seat.action.parameterCount] ++ seat.action.parameters.toList.map fdStoreU32Le

def jointDecisionPieces (decision : JointDecision) : List (List UInt8) :=
  domainPieces "FrontierDirectorate/JointDecision/v1" ++
  [fdStoreU32Le decision.seatCount, fdStoreU32Le decision.reserved,
    fdStoreU64Le decision.expectedTick, decision.expectedPreStateSha256.toList] ++
  decision.seats.toList.flatMap seatPieces

def fdHashJointDecisionInternal (decision : JointDecision) : Digest :=
  sha256Pieces (jointDecisionPieces decision)

def tilePieces (tile : Tile) : List (List UInt8) :=
  [fdStoreU32Le tile.terrain, fdStoreU32Le tile.overlays, fdStoreU32Le tile.elevationCm.toUInt32,
    fdStoreU32Le tile.rainfallMm, fdStoreU64Le tile.settlementId]

def entityPieces (entity : Entity) : List (List UInt8) :=
  [fdStoreU64Le entity.id, fdStoreU32Le entity.kind, fdStoreU32Le entity.x, fdStoreU32Le entity.y,
    fdStoreU64Le entity.regionId, fdStoreU64Le entity.ownerId,
    fdStoreU32Le (UInt32.ofNat entity.name.length), entity.name]

def regionPieces (region : Region) : List (List UInt8) :=
  [fdStoreU64Le region.id, fdStoreU64Le region.politicalOwnerId] ++
  region.settlementIds.toList.map fdStoreU64Le ++
  region.foreignFactionIds.toList.map fdStoreU64Le ++
  [fdStoreU64Le region.riverOutletTileId, fdStoreU64Le region.roadStartTileId,
    fdStoreU64Le region.roadEndTileId, fdStoreU32Le region.riverTileCount,
    fdStoreU32Le region.roadTileCount]

def statePieces (world : World) : List (List UInt8) :=
  domainPieces "FrontierDirectorate/State/v1" ++
  [world.config.generatorVersion, world.config.rulesetVersion, fdRngRegistryVersion,
    world.config.width, world.config.height, world.config.attemptBudget,
    world.config.forestDensityPpm, world.config.hillDensityPpm, world.config.wetlandDensityPpm,
    world.config.referenceMode].map fdStoreU32Le ++
  [world.rootSeedLe.toList, fdStoreU32Le (UInt32.ofNat world.content.packs.length)] ++
  world.content.packs.flatMap packPieces ++
  [fdStoreU64Le world.tick, fdStoreU32Le (UInt32.ofNat world.tileCount)] ++
  world.tiles.flatMap tilePieces ++
  fdStoreU32Le fdU01EntityCount :: world.entities.toList.flatMap entityPieces ++
  regionPieces world.region

/-- The digest `fd_world_compute_hash` stores. -/
def stateDigest (world : World) : Digest := sha256Pieces (statePieces world)

def fdWorldComputeHash (world : World) : World := { world with stateSha256 := stateDigest world }

end FrontierDirectorate
