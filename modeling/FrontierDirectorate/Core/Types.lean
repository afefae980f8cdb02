import Mathlib
import FrontierDirectorate.Lib.ByteCodec

/-!
# Data model of the core

The structures of `fd.h` and `fd_internal.h`. A pointer with its element count
is a list; a fixed array is a list with its length in the type.
-/
namespace FrontierDirectorate

/-- The seats and the entities are numbered by literals. -/
instance neZero_seats : NeZero 2 := ⟨by decide⟩
instance neZero_entities : NeZero 6 := ⟨by decide⟩

abbrev Digest := List.Vector UInt8 32
abbrev FdEntityId := UInt64

/-- The bytes of a string literal. -/
def asciiBytes (s : String) : List UInt8 := s.toList.map fun c => c.toNat.toUInt8

abbrev fdAbiVersion : UInt32 := 1
abbrev fdApiVersionMajor : UInt16 := 0
abbrev fdApiVersionMinor : UInt16 := 1
abbrev fdApiVersionPatch : UInt16 := 0
abbrev fdGeneratorVersion : UInt32 := 1
abbrev fdRulesetVersion : UInt32 := 1
abbrev fdRngRegistryVersion : UInt32 := 1
abbrev fdSaveVersionMajor : UInt16 := 1
abbrev fdSaveVersionMinor : UInt16 := 0
abbrev fdReplayVersionMajor : UInt16 := 1
abbrev fdReplayVersionMinor : UInt16 := 0

abbrev fdMaxContentPacks : Nat := 16
abbrev fdMaxGenerationAttempts : UInt32 := 64
abbrev fdMaxNameBytes : Nat := 48
abbrev fdU01SeatCount : UInt32 := 2
abbrev fdU01EntityCount : UInt32 := 6
abbrev fdU01PhaseCount : Nat := 23
abbrev fdU01PhaseTraceCount : Nat := 552
abbrev fdOperationalTicks : UInt64 := 24

abbrev fdMinWidth : UInt32 := 32
abbrev fdMaxWidth : UInt32 := 256
abbrev fdMinHeight : UInt32 := 16
abbrev fdMaxHeight : UInt32 := 128
abbrev fdMaxTiles : Nat := 32768

/-- `UINT32_MAX`, also the "no index" mark of the core. -/
abbrev uint32Max : Nat := 4294967295
abbrev uint64Max : Nat := 18446744073709551615

/-- Result codes. -/
abbrev FdResult := UInt32
abbrev fdOk : FdResult := 0
abbrev fdErrInvalidArgument : FdResult := 1
abbrev fdErrInvalidSize : FdResult := 2
abbrev fdErrOutOfRange : FdResult := 3
abbrev fdErrCapacity : FdResult := 4
abbrev fdErrOutOfMemory : FdResult := 5
abbrev fdErrGenerationExhausted : FdResult := 6
abbrev fdErrInvalidAction : FdResult := 7
abbrev fdErrBufferTooSmall : FdResult := 8
abbrev fdErrFormat : FdResult := 9
abbrev fdErrVersion : FdResult := 10
abbrev fdErrChecksum : FdResult := 11
abbrev fdErrState : FdResult := 12
abbrev fdErrBusy : FdResult := 13
abbrev fdErrInternal : FdResult := 14

/-- Diagnostic field identifiers. -/
abbrev fdFieldNone : UInt32 := 0
abbrev fdFieldStructSize : UInt32 := 1
abbrev fdFieldWidth : UInt32 := 3
abbrev fdFieldHeight : UInt32 := 4
abbrev fdFieldAttemptBudget : UInt32 := 5
abbrev fdFieldTerrainDensity : UInt32 := 6
abbrev fdFieldContent : UInt32 := 7
abbrev fdFieldCoordinate : UInt32 := 8
abbrev fdFieldEntityId : UInt32 := 9
abbrev fdFieldAction : UInt32 := 10
abbrev fdFieldSeatCount : UInt32 := 11
abbrev fdFieldBufferCapacity : UInt32 := 12
abbrev fdFieldFileBytes : UInt32 := 13
abbrev fdFieldFormatVersion : UInt32 := 14
abbrev fdFieldSection : UInt32 := 15
abbrev fdFieldTick : UInt32 := 16
abbrev fdFieldReserved : UInt32 := 17
abbrev fdFieldAsciiMessage : UInt32 := 19

/-- Terrain identifiers and overlay bits are wire values. -/
abbrev fdTerrainWater : UInt32 := 1
abbrev fdTerrainGrassland : UInt32 := 2
abbrev fdTerrainForest : UInt32 := 3
abbrev fdTerrainHills : UInt32 := 4
abbrev fdTerrainWetlands : UInt32 := 5
abbrev fdTerrainSettlement : UInt32 := 6

abbrev fdTileOverlayRiver : UInt32 := 1
abbrev fdTileOverlayRoadCandidate : UInt32 := 2
abbrev fdTileRiverOutlet : UInt32 := 4
abbrev fdTileRoadCrossing : UInt32 := 8

abbrev fdEntityRegion : UInt32 := 1
abbrev fdEntitySettlementCoastal : UInt32 := 2
abbrev fdEntitySettlementInland : UInt32 := 3
abbrev fdEntityPolityLocal : UInt32 := 4
abbrev fdEntityFactionForeign : UInt32 := 5

abbrev fdActionPass : UInt32 := 1

/-- What a failing call hands to `fd_diag_set`. -/
structure Fail where
  code : FdResult
  fieldId : UInt32
  itemIndex : UInt32
  message : String
deriving DecidableEq, Repr

def fdDiagSet (code : FdResult) (fieldId itemIndex : UInt32) (message : String) : Fail :=
  ⟨code, fieldId, itemIndex, message⟩

/-- The two leading words of every versioned public structure. -/
structure StructHeader where
  structSize : UInt32
  abiVersion : UInt32
deriving DecidableEq, Repr

def fdOutputStructValid (out : StructHeader) (structSize : UInt32) : Bool :=
  decide (structSize ≤ out.structSize) && out.abiVersion == fdAbiVersion

def fdInputStructValid (input : StructHeader) (structSize : UInt32) : Bool :=
  fdOutputStructValid input structSize

/-- `sizeof` of the structures the core allocates or checks (64-bit layout). -/
abbrev sizeofFdWorldConfig : UInt32 := 76
abbrev sizeofFdContentManifest : UInt32 := 24
abbrev sizeofFdGenerationReport : UInt32 := 664
abbrev sizeofFdValidationReport : UInt32 := 48
abbrev sizeofFdAction : UInt32 := 32
abbrev sizeofFdJointDecision : UInt32 := 136
abbrev sizeofFdStepResult : UInt32 := 5112
abbrev sizeofFdReplayStatus : UInt32 := 72
abbrev sizeofFdTile : Nat := 24
abbrev sizeofFdWorld : Nat := 1544
abbrev sizeofFdSnapshot : Nat := 912
abbrev sizeofFdReplay : Nat := 128
abbrev sizeofFdReplayRecord : Nat := 256
abbrev sizeofFdReplayAudit : Nat := 328

structure WorldConfig where
  structSize : UInt32
  abiVersion : UInt32
  width : UInt32
  height : UInt32
  attemptBudget : UInt32
  generatorVersion : UInt32
  rulesetVersion : UInt32
  forestDensityPpm : UInt32
  hillDensityPpm : UInt32
  wetlandDensityPpm : UInt32
  referenceMode : UInt32
  reserved : List.Vector UInt32 8
deriving DecidableEq

def WorldConfig.header (config : WorldConfig) : StructHeader := ⟨config.structSize, config.abiVersion⟩

structure ContentPack where
  stableId : UInt64
  sha256 : Digest
deriving DecidableEq

structure ContentManifest where
  structSize : UInt32
  abiVersion : UInt32
  reserved : UInt32
  packs : List ContentPack
deriving DecidableEq

def ContentManifest.header (content : ContentManifest) : StructHeader :=
  ⟨content.structSize, content.abiVersion⟩

/-- `content_count` entries of `content[FD_MAX_CONTENT_PACKS]`. -/
structure ContentTable where
  packs : List ContentPack
  count_le : packs.length ≤ fdMaxContentPacks
deriving DecidableEq

/-- `memcpy` into the fixed array. -/
def ContentTable.copy (packs : List ContentPack) : ContentTable :=
  ⟨packs.take fdMaxContentPacks, List.length_take_le _ _⟩

theorem ContentTable.copy_packs {packs : List ContentPack} (h : packs.length ≤ fdMaxContentPacks) :
    (ContentTable.copy packs).packs = packs := List.take_of_length_le h

structure Tile where
  elevationCm : Int32
  rainfallMm : UInt32
  settlementId : FdEntityId
  terrain : UInt32
  overlays : UInt32
deriving DecidableEq, Repr

/-- A tile after `memset`. -/
def Tile.zero : Tile := ⟨0, 0, 0, 0, 0⟩

/-- `name` holds the first `name_length` bytes of the array; the rest of it is zero. -/
structure Entity where
  id : FdEntityId
  kind : UInt32
  x : UInt32
  y : UInt32
  regionId : FdEntityId
  ownerId : FdEntityId
  name : List UInt8
deriving DecidableEq, Repr

def Entity.zero : Entity := ⟨0, 0, 0, 0, 0, 0, []⟩

structure Region where
  id : FdEntityId
  politicalOwnerId : FdEntityId
  settlementIds : List.Vector FdEntityId 2
  foreignFactionIds : List.Vector FdEntityId 2
  riverOutletTileId : UInt64
  roadStartTileId : UInt64
  roadEndTileId : UInt64
  riverTileCount : UInt32
  roadTileCount : UInt32
deriving DecidableEq

def Region.zero : Region :=
  ⟨0, 0, List.Vector.replicate 2 0, List.Vector.replicate 2 0, 0, 0, 0, 0, 0⟩

/-- A world; `tile_count` is the length of `tiles`. -/
structure World where
  config : WorldConfig
  rootSeedLe : List.Vector UInt8 16
  content : ContentTable
  configurationSha256 : Digest
  contentSha256 : Digest
  tick : UInt64
  tiles : List Tile
  entities : List.Vector Entity 6
  region : Region
  riverTileCount : UInt32
  roadTileCount : UInt32
  landTileCount : UInt32
  riverRaisedTileCount : UInt32
  riverMinCarveCm : UInt32
  allocationSize : UInt32
  stateSha256 : Digest
deriving DecidableEq

namespace World

def width (world : World) : Nat := world.config.width.toNat
def height (world : World) : Nat := world.config.height.toNat
def tileCount (world : World) : Nat := world.tiles.length

/-- `world->tiles[index]`. -/
def tile (world : World) (index : Nat) : Tile := world.tiles.getD index Tile.zero

/-- In-place update of `world->tiles[index]`. -/
def modifyTile (world : World) (index : Nat) (f : Tile → Tile) : World :=
  { world with tiles := world.tiles.modify index f }

def entity (world : World) (index : Fin 6) : Entity := world.entities.get index

end World

structure Action where
  structSize : UInt32
  abiVersion : UInt32
  category : UInt32
  parameterCount : UInt32
  parameters : List.Vector UInt32 4
deriving DecidableEq

def Action.header (action : Action) : StructHeader := ⟨action.structSize, action.abiVersion⟩

structure SeatDecision where
  actorId : FdEntityId
  action : Action
deriving DecidableEq

structure JointDecision where
  structSize : UInt32
  abiVersion : UInt32
  seatCount : UInt32
  reserved : UInt32
  expectedTick : UInt64
  expectedPreStateSha256 : Digest
  seats : List.Vector SeatDecision 2
deriving DecidableEq

def JointDecision.header (decision : JointDecision) : StructHeader :=
  ⟨decision.structSize, decision.abiVersion⟩

def fdMakeEntityId (slot : UInt32) : FdEntityId := ((1 : UInt64) <<< 32) ||| slot.toUInt64

def fdTileIdFromIndex (index : Nat) : UInt64 := UInt64.ofNat index + 1

end FrontierDirectorate
