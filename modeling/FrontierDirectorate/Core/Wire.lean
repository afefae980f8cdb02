import Mathlib
import FrontierDirectorate.Core.Endian
import FrontierDirectorate.Core.Inputs

/-!
# Fixed-width records of the formats

How the save format lays out a tile, a content pack, the region, an entity and
the configuration. Each record is a codec.
-/
namespace FrontierDirectorate
open ByteCodec

def encodeTile (tile : Tile) : List UInt8 :=
  fdStoreU32Le tile.terrain ++ (fdStoreU32Le tile.overlays ++
    (fdStoreU32Le tile.elevationCm.toUInt32 ++ (fdStoreU32Le tile.rainfallMm ++
      fdStoreU64Le tile.settlementId)))

def decodeTile (p : List UInt8) : Tile where
  terrain := fdLoadU32Le p
  overlays := fdLoadU32Le (p.drop 4)
  elevationCm := (fdLoadU32Le (p.drop 8)).toInt32
  rainfallMm := fdLoadU32Le (p.drop 12)
  settlementId := fdLoadU64Le (p.drop 16)

def encodePack (pack : ContentPack) : List UInt8 := fdStoreU64Le pack.stableId ++ pack.sha256.toList

def decodePack (p : List UInt8) : ContentPack where
  stableId := fdLoadU64Le p
  sha256 := bytesOf 32 (p.drop 8)

def encodeRegion (region : Region) : List UInt8 :=
  fdStoreU64Le region.id ++ (fdStoreU64Le region.politicalOwnerId ++
    (fdStoreU64Le (region.settlementIds.get 0) ++ (fdStoreU64Le (region.settlementIds.get 1) ++
      (fdStoreU64Le (region.foreignFactionIds.get 0) ++
        (fdStoreU64Le (region.foreignFactionIds.get 1) ++
          (fdStoreU64Le region.riverOutletTileId ++ (fdStoreU64Le region.roadStartTileId ++
            (fdStoreU64Le region.roadEndTileId ++ (fdStoreU32Le region.riverTileCount ++
              fdStoreU32Le region.roadTileCount)))))))))

def decodeRegion (p : List UInt8) : Region where
  id := fdLoadU64Le p
  politicalOwnerId := fdLoadU64Le (p.drop 8)
  settlementIds := ⟨[fdLoadU64Le (p.drop 16), fdLoadU64Le (p.drop 24)], rfl⟩
  foreignFactionIds := ⟨[fdLoadU64Le (p.drop 32), fdLoadU64Le (p.drop 40)], rfl⟩
  riverOutletTileId := fdLoadU64Le (p.drop 48)
  roadStartTileId := fdLoadU64Le (p.drop 56)
  roadEndTileId := fdLoadU64Le (p.drop 64)
  riverTileCount := fdLoadU32Le (p.drop 72)
  roadTileCount := fdLoadU32Le (p.drop 76)

/-- The 40 bytes of an entity before its name. -/
def encodeEntityHead (entity : Entity) : List UInt8 :=
  fdStoreU64Le entity.id ++ (fdStoreU32Le entity.kind ++ (fdStoreU32Le entity.x ++
    (fdStoreU32Le entity.y ++ (fdStoreU64Le entity.regionId ++ (fdStoreU64Le entity.ownerId ++
      fdStoreU32Le (UInt32.ofNat entity.name.length))))))

def encodeEntity (entity : Entity) : List UInt8 := encodeEntityHead entity ++ entity.name

def encodeConfigFields (config : WorldConfig) : List UInt8 :=
  fdStoreU32Le config.width ++ (fdStoreU32Le config.height ++ (fdStoreU32Le config.attemptBudget ++
    (fdStoreU32Le config.generatorVersion ++ (fdStoreU32Le config.rulesetVersion ++
      (fdStoreU32Le config.forestDensityPpm ++ (fdStoreU32Le config.hillDensityPpm ++
        (fdStoreU32Le config.wetlandDensityPpm ++ fdStoreU32Le config.referenceMode)))))))

/-- The configuration fields of the format over the defaults of `fd_world_config_init`. -/
def decodeConfigFields (p : List UInt8) : WorldConfig :=
  { fdWorldConfigInit with
    width := fdLoadU32Le p
    height := fdLoadU32Le (p.drop 4)
    attemptBudget := fdLoadU32Le (p.drop 8)
    generatorVersion := fdLoadU32Le (p.drop 12)
    rulesetVersion := fdLoadU32Le (p.drop 16)
    forestDensityPpm := fdLoadU32Le (p.drop 20)
    hillDensityPpm := fdLoadU32Le (p.drop 24)
    wetlandDensityPpm := fdLoadU32Le (p.drop 28)
    referenceMode := fdLoadU32Le (p.drop 32) }

section laws

theorem int32_cast (v : UInt32) : v.toInt32.toUInt32 = v := rfl

theorem pair_eta {α : Type} (v : List.Vector α 2) : (⟨[v.get 0, v.get 1], rfl⟩ : List.Vector α 2) = v := by
  match v with
  | ⟨[_, _], _⟩ => rfl

theorem pair_get_zero {α : Type} (a b : α) (h : [a, b].length = 2) :
    List.Vector.get (⟨[a, b], h⟩ : List.Vector α 2) 0 = a := rfl

theorem pair_get_one {α : Type} (a b : α) (h : [a, b].length = 2) :
    List.Vector.get (⟨[a, b], h⟩ : List.Vector α 2) 1 = b := rfl

theorem decodeTile_encodeTile (tile : Tile) (rest : List UInt8) :
    decodeTile (encodeTile tile ++ rest) = tile := by
  simp [encodeTile, decodeTile]

theorem encodeTile_decodeTile (p : List UInt8) (h : 24 ≤ p.length) :
    encodeTile (decodeTile p) = p.take 24 := by
  have h0 := fdStoreU32Le_load_drop p 0 (by omega)
  rw [List.drop_zero] at h0
  simp only [encodeTile, decodeTile, int32_cast, h0]
  rw [fdStoreU32Le_load_drop p 4 (by omega), fdStoreU32Le_load_drop p 8 (by omega),
    fdStoreU32Le_load_drop p 12 (by omega), fdStoreU64Le_load_drop p 16 (by omega)]
  simp only [slice_append_slice, Nat.reduceAdd]
  exact slice_zero p _

def tileCodec : Codec Tile where
  width := 24
  encode := encodeTile
  decode := decodeTile
  encode_length tile := by simp [encodeTile]
  decode_encode := decodeTile_encodeTile
  encode_decode := encodeTile_decodeTile

theorem decodePack_encodePack (pack : ContentPack) (rest : List UInt8) :
    decodePack (encodePack pack ++ rest) = pack := by
  simp [encodePack, decodePack, bytesOf_append]

theorem encodePack_decodePack (p : List UInt8) (h : 40 ≤ p.length) :
    encodePack (decodePack p) = p.take 40 := by
  have h0 := fdStoreU64Le_load_drop p 0 (by omega)
  have h8 : (bytesOf 32 (p.drop 8)).toList = slice p 8 32 :=
    toList_bytesOf (by rw [List.length_drop]; omega)
  rw [List.drop_zero] at h0
  simp only [encodePack, decodePack, h0, h8, slice_append_slice, Nat.reduceAdd]
  exact slice_zero p _

def packCodec : Codec ContentPack where
  width := 40
  encode := encodePack
  decode := decodePack
  encode_length pack := by simp [encodePack]
  decode_encode := decodePack_encodePack
  encode_decode := encodePack_decodePack

theorem decodeRegion_encodeRegion (region : Region) (rest : List UInt8) :
    decodeRegion (encodeRegion region ++ rest) = region := by
  simp [encodeRegion, decodeRegion, pair_eta, -List.Vector.get_zero]

theorem encodeRegion_decodeRegion (p : List UInt8) (h : 80 ≤ p.length) :
    encodeRegion (decodeRegion p) = p.take 80 := by
  have h0 := fdStoreU64Le_load_drop p 0 (by omega)
  rw [List.drop_zero] at h0
  simp only [encodeRegion, decodeRegion, pair_get_zero, pair_get_one, h0]
  rw [fdStoreU64Le_load_drop p 8 (by omega), fdStoreU64Le_load_drop p 16 (by omega),
    fdStoreU64Le_load_drop p 24 (by omega), fdStoreU64Le_load_drop p 32 (by omega),
    fdStoreU64Le_load_drop p 40 (by omega), fdStoreU64Le_load_drop p 48 (by omega),
    fdStoreU64Le_load_drop p 56 (by omega), fdStoreU64Le_load_drop p 64 (by omega),
    fdStoreU32Le_load_drop p 72 (by omega), fdStoreU32Le_load_drop p 76 (by omega)]
  simp only [slice_append_slice, Nat.reduceAdd]
  exact slice_zero p _

def regionCodec : Codec Region where
  width := 80
  encode := encodeRegion
  decode := decodeRegion
  encode_length region := by simp [encodeRegion]
  decode_encode := decodeRegion_encodeRegion
  encode_decode := encodeRegion_decodeRegion

/-- A configuration whose fields outside the format have the default values. -/
def WorldConfig.Canonical (config : WorldConfig) : Prop :=
  config.structSize = sizeofFdWorldConfig ∧ config.abiVersion = fdAbiVersion ∧
    config.reserved = List.Vector.replicate 8 0

theorem decodeConfigFields_canonical (p : List UInt8) : (decodeConfigFields p).Canonical :=
  ⟨rfl, rfl, rfl⟩

theorem decodeConfigFields_encodeConfigFields {config : WorldConfig} (h : config.Canonical)
    (rest : List UInt8) : decodeConfigFields (encodeConfigFields config ++ rest) = config := by
  obtain ⟨hsize, habi, hreserved⟩ := h
  cases config
  simp only at hsize habi hreserved
  simp [decodeConfigFields, encodeConfigFields, fdWorldConfigInit, hsize, habi, hreserved]

theorem encodeConfigFields_decodeConfigFields (p : List UInt8) (h : 36 ≤ p.length) :
    encodeConfigFields (decodeConfigFields p) = p.take 36 := by
  have h0 := fdStoreU32Le_load_drop p 0 (by omega)
  rw [List.drop_zero] at h0
  simp only [encodeConfigFields, decodeConfigFields, h0]
  rw [fdStoreU32Le_load_drop p 4 (by omega), fdStoreU32Le_load_drop p 8 (by omega),
    fdStoreU32Le_load_drop p 12 (by omega), fdStoreU32Le_load_drop p 16 (by omega),
    fdStoreU32Le_load_drop p 20 (by omega), fdStoreU32Le_load_drop p 24 (by omega),
    fdStoreU32Le_load_drop p 28 (by omega), fdStoreU32Le_load_drop p 32 (by omega)]
  simp only [slice_append_slice, Nat.reduceAdd]
  exact slice_zero p _

@[simp] theorem encodeConfigFields_length (config : WorldConfig) :
    (encodeConfigFields config).length = 36 := by simp [encodeConfigFields]

@[simp] theorem encodeEntityHead_length (entity : Entity) :
    (encodeEntityHead entity).length = 40 := by simp [encodeEntityHead]

@[simp] theorem encodeEntity_length (entity : Entity) :
    (encodeEntity entity).length = 40 + entity.name.length := by simp [encodeEntity]

end laws

end FrontierDirectorate
