import Mathlib
import FrontierDirectorate.Core.Types

/-!
# Public views

The view structures of `fd.h`, without their two leading words, and the
functions of `fd_core.c` that fill them.
-/
namespace FrontierDirectorate

abbrev sizeofFdWorldInfo : UInt32 := 232
abbrev sizeofFdTileView : UInt32 := 64
abbrev sizeofFdEntityView : UInt32 := 104
abbrev sizeofFdRegionView : UInt32 := 96

structure WorldInfo where
  width : UInt32
  height : UInt32
  tick : UInt64
  generatorVersion : UInt32
  rulesetVersion : UInt32
  rngRegistryVersion : UInt32
  terrainTypeCount : UInt32
  entityCount : UInt32
  settlementCount : UInt32
  foreignFactionCount : UInt32
  regionCount : UInt32
  riverTileCount : UInt32
  roadTileCount : UInt32
  contentPackCount : UInt32
  rootSeedLe : List.Vector UInt8 16
  configurationSha256 : Digest
  contentSha256 : Digest
  stateSha256 : Digest
  regionId : FdEntityId
  localPolityId : FdEntityId
  coastalSettlementId : FdEntityId
  inlandSettlementId : FdEntityId
  foreignFactionIds : List.Vector FdEntityId 2
deriving DecidableEq

def fdFillWorldInfo (world : World) : WorldInfo where
  width := world.config.width
  height := world.config.height
  tick := world.tick
  generatorVersion := world.config.generatorVersion
  rulesetVersion := world.config.rulesetVersion
  rngRegistryVersion := fdRngRegistryVersion
  terrainTypeCount := 6
  entityCount := fdU01EntityCount
  settlementCount := 2
  foreignFactionCount := fdU01SeatCount
  regionCount := 1
  riverTileCount := world.riverTileCount
  roadTileCount := world.roadTileCount
  contentPackCount := UInt32.ofNat world.content.packs.length
  rootSeedLe := world.rootSeedLe
  configurationSha256 := world.configurationSha256
  contentSha256 := world.contentSha256
  stateSha256 := world.stateSha256
  regionId := world.region.id
  localPolityId := (world.entity 3).id
  coastalSettlementId := (world.entity 1).id
  inlandSettlementId := (world.entity 2).id
  foreignFactionIds := (world.entity 4).id ::ᵥ (world.entity 5).id ::ᵥ List.Vector.nil

structure TileView where
  tileId : UInt64
  x : UInt32
  y : UInt32
  terrain : UInt32
  overlays : UInt32
  elevationCm : Int32
  rainfallMm : UInt32
  regionId : FdEntityId
  settlementId : FdEntityId
  polityOwnerId : FdEntityId
deriving DecidableEq

/-- `name` is the whole array of the view. -/
structure EntityView where
  id : FdEntityId
  kind : UInt32
  x : UInt32
  y : UInt32
  regionId : FdEntityId
  ownerId : FdEntityId
  nameLength : UInt32
  name : List UInt8
deriving DecidableEq

def fdFillEntityView (entity : Entity) : EntityView where
  id := entity.id
  kind := entity.kind
  x := entity.x
  y := entity.y
  regionId := entity.regionId
  ownerId := entity.ownerId
  nameLength := UInt32.ofNat entity.name.length
  name := entity.name ++ List.replicate (fdMaxNameBytes - entity.name.length) 0

structure RegionView where
  id : FdEntityId
  politicalOwnerId : FdEntityId
  settlementCount : UInt32
  foreignPresenceCount : UInt32
  settlementIds : List.Vector FdEntityId 2
  foreignFactionIds : List.Vector FdEntityId 2
  riverOutletTileId : UInt64
  roadStartTileId : UInt64
  roadEndTileId : UInt64
  riverTileCount : UInt32
  roadTileCount : UInt32
deriving DecidableEq

def fdFillRegionView (region : Region) : RegionView where
  id := region.id
  politicalOwnerId := region.politicalOwnerId
  settlementCount := 2
  foreignPresenceCount := fdU01SeatCount
  settlementIds := region.settlementIds
  foreignFactionIds := region.foreignFactionIds
  riverOutletTileId := region.riverOutletTileId
  roadStartTileId := region.roadStartTileId
  roadEndTileId := region.roadEndTileId
  riverTileCount := region.riverTileCount
  roadTileCount := region.roadTileCount

end FrontierDirectorate
