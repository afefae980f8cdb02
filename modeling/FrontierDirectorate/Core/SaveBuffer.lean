import Mathlib
import FrontierDirectorate.Core.SaveLayout
import FrontierDirectorate.Lib.CheckedMemory

/-!
# Saving into a buffer

The writer of `fd_serialize.c` as it works on the caller's memory: every store goes to
the current position, a section digest is computed from the payload that has been
written, and the footer from everything before it. A store or a read outside the buffer
has no result.
-/
namespace FrontierDirectorate
open ByteCodec CheckedMemory Checks

/-- `fd_writer_internal`. -/
abbrev SaveWriter := Writes UInt8

def fdWriteBytes (bytes : List UInt8) : SaveWriter Unit := put bytes

def fdWriteU16 (value : UInt16) : SaveWriter Unit := put (fdStoreU16Le value)

def fdWriteU32 (value : UInt32) : SaveWriter Unit := put (fdStoreU32Le value)

def fdWriteU64 (value : UInt64) : SaveWriter Unit := put (fdStoreU64Le value)

/-- `fd_begin_section`; the result is the position of the payload. -/
def fdBeginSectionAt (tag : UInt16) (length : Nat) : SaveWriter Nat := do
  fdWriteU16 tag
  fdWriteU16 fdSectionCritical
  fdWriteU32 0
  fdWriteU64 (UInt64.ofNat length)
  position

def fdEndSectionAt (payloadPosition length : Nat) : SaveWriter Unit := do
  let payload ← readBack payloadPosition length
  fdWriteBytes (fdSha256 payload).toList

/-- One section of `fd_world_save`: its header, the stores of its payload and its digest. -/
def writeSectionAt (tag : UInt16) (length : Nat) (payload : SaveWriter Unit) : SaveWriter Unit := do
  let payloadPosition ← fdBeginSectionAt tag length
  payload
  fdEndSectionAt payloadPosition length

def writeManifest : SaveWriter Unit := do
  fdWriteU16 fdSaveVersionMajor
  fdWriteU16 fdSaveVersionMinor
  fdWriteU16 fdSaveVersionMajor
  fdWriteU16 0
  fdWriteU32 (UInt32.ofNat fdSaveSectionCount)
  fdWriteU32 0

def writeVersions (world : World) : SaveWriter Unit := do
  fdWriteU32 fdApiVersionMajor.toUInt32
  fdWriteU32 fdApiVersionMinor.toUInt32
  fdWriteU32 fdApiVersionPatch.toUInt32
  fdWriteU32 world.config.generatorVersion
  fdWriteU32 world.config.rulesetVersion
  fdWriteU32 fdSaveVersionMajor.toUInt32
  fdWriteU32 fdSaveVersionMinor.toUInt32
  fdWriteU32 fdReplayVersionMajor.toUInt32
  fdWriteU32 fdReplayVersionMinor.toUInt32
  fdWriteU32 fdRngRegistryVersion

def writeConfig (world : World) : SaveWriter Unit := do
  fdWriteU32 world.config.width
  fdWriteU32 world.config.height
  fdWriteU32 world.config.attemptBudget
  fdWriteU32 world.config.generatorVersion
  fdWriteU32 world.config.rulesetVersion
  fdWriteU32 world.config.forestDensityPpm
  fdWriteU32 world.config.hillDensityPpm
  fdWriteU32 world.config.wetlandDensityPpm
  fdWriteU32 world.config.referenceMode
  fdWriteBytes world.configurationSha256.toList

def writePack (pack : ContentPack) : SaveWriter Unit := do
  fdWriteU64 pack.stableId
  fdWriteBytes pack.sha256.toList

def writeContent (world : World) : SaveWriter Unit := do
  fdWriteU32 (UInt32.ofNat world.content.packs.length)
  world.content.packs.forM writePack

def writeSeed (world : World) : SaveWriter Unit := do
  fdWriteBytes world.rootSeedLe.toList
  fdWriteU32 fdRngRegistryVersion
  fdWriteU32 0

def writeTime (world : World) : SaveWriter Unit := do
  fdWriteU64 world.tick
  fdWriteU64 1
  fdWriteU64 fdOperationalTicks
  fdWriteU64 168
  fdWriteU64 720
  fdWriteU64 2160
  fdWriteU64 8640

def writeTileCounts (world : World) : SaveWriter Unit := do
  fdWriteU32 (UInt32.ofNat world.tileCount)
  fdWriteU32 world.config.width
  fdWriteU32 world.config.height
  fdWriteU32 world.riverTileCount
  fdWriteU32 world.roadTileCount
  fdWriteU32 world.landTileCount

def writeTile (tile : Tile) : SaveWriter Unit := do
  fdWriteU32 tile.terrain
  fdWriteU32 tile.overlays
  fdWriteU32 tile.elevationCm.toUInt32
  fdWriteU32 tile.rainfallMm
  fdWriteU64 tile.settlementId

def writeRegion (region : Region) : SaveWriter Unit := do
  fdWriteU64 region.id
  fdWriteU64 region.politicalOwnerId
  fdWriteU64 (region.settlementIds.get 0)
  fdWriteU64 (region.settlementIds.get 1)
  fdWriteU64 (region.foreignFactionIds.get 0)
  fdWriteU64 (region.foreignFactionIds.get 1)
  fdWriteU64 region.riverOutletTileId
  fdWriteU64 region.roadStartTileId
  fdWriteU64 region.roadEndTileId
  fdWriteU32 region.riverTileCount
  fdWriteU32 region.roadTileCount

def writeMap (world : World) : SaveWriter Unit := do
  writeTileCounts world
  world.tiles.forM writeTile
  writeRegion world.region

def writeEntity (entity : Entity) : SaveWriter Unit := do
  fdWriteU64 entity.id
  fdWriteU32 entity.kind
  fdWriteU32 entity.x
  fdWriteU32 entity.y
  fdWriteU64 entity.regionId
  fdWriteU64 entity.ownerId
  fdWriteU32 (UInt32.ofNat entity.name.length)
  fdWriteBytes entity.name

def writeEntities (world : World) : SaveWriter Unit := do
  fdWriteU32 fdU01EntityCount
  fdWriteU32 fdU01EntityCount
  world.entities.toList.forM writeEntity

def writePending : SaveWriter Unit := do
  fdWriteU32 0
  fdWriteU32 0
  fdWriteU32 0
  fdWriteU32 0

/-- The digest of everything in front of the position. -/
def writeFooter : SaveWriter Unit := do
  let size ← position
  let bytes ← readBack 0 size
  fdWriteBytes (fdFooterDigest bytes).toList

/-- The stores of `fd_world_save`, from the magic to the footer. -/
def writeSave (world : World) : SaveWriter Unit := do
  fdWriteBytes fdSaveMagic
  writeSectionAt 1 16 writeManifest
  writeSectionAt 2 40 (writeVersions world)
  writeSectionAt 3 68 (writeConfig world)
  writeSectionAt 4 (contentLength world) (writeContent world)
  writeSectionAt 5 24 (writeSeed world)
  writeSectionAt 6 56 (writeTime world)
  writeSectionAt 7 (mapLength world) (writeMap world)
  writeSectionAt 8 (fdEntitySectionLength world) (writeEntities world)
  writeSectionAt 9 4 (fdWriteU32 0)
  writeSectionAt 10 16 writePending
  writeSectionAt 11 32 (fdWriteBytes world.stateSha256.toList)
  writeFooter

/-- What a writing call leaves behind: its result, `*written` and the caller's buffer. -/
structure Filled where
  result : Except Fail Unit
  written : Nat
  buffer : List UInt8

/-- `fd_world_save` with the caller's memory behind `buffer`. -/
def fdWorldSaveInto (context : FdContext) (world : World) (buffer : List UInt8) (capacity : Nat) :
    Option Filled :=
  match fdWorldSaveSize context world with
  | .error failure => some ⟨.error failure, 0, buffer⟩
  | .ok required =>
    if capacity < required then
      some ⟨.error (fdDiagSet fdErrBufferTooSmall fdFieldBufferCapacity 0
        "save buffer is smaller than required size"), 0, buffer⟩
    else
      (writeSave world ⟨buffer, 0⟩).map fun (_, writer) =>
        if writer.position ≠ required then
          ⟨.error (fdDiagSet fdErrInternal fdFieldFileBytes 0
            "save size implementation mismatch"), 0, writer.memory⟩
        else ⟨.ok (), writer.position, writer.memory⟩

section emits

variable {before : List UInt8} {world : World}

/-- A record written field by field is its encoding. -/
theorem writePack_eq (pack : ContentPack) : writePack pack = put (encodePack pack) := by
  simp only [writePack, fdWriteU64, fdWriteBytes, put_put, encodePack]

theorem writeTile_eq (tile : Tile) : writeTile tile = put (encodeTile tile) := by
  simp only [writeTile, fdWriteU32, fdWriteU64, put_put, encodeTile]

theorem writeRegion_eq (region : Region) : writeRegion region = put (encodeRegion region) := by
  simp only [writeRegion, fdWriteU32, fdWriteU64, put_put, encodeRegion]

theorem writeEntity_eq (entity : Entity) : writeEntity entity = put (encodeEntity entity) := by
  simp only [writeEntity, fdWriteU32, fdWriteU64, fdWriteBytes, put_put, encodeEntity,
    encodeEntityHead, List.append_assoc]

theorem writeManifest_eq : writeManifest = put manifestPayload := by
  simp only [writeManifest, fdWriteU16, fdWriteU32, put_put, manifestPayload]

theorem writeVersions_eq (world : World) : writeVersions world = put (versionPayload world) := by
  simp only [writeVersions, fdWriteU32, put_put, versionPayload]

theorem writeConfig_eq (world : World) : writeConfig world = put (configPayload world) := by
  simp only [writeConfig, fdWriteU32, fdWriteBytes, put_put, configPayload, encodeConfigFields,
    List.append_assoc]

theorem writeSeed_eq (world : World) : writeSeed world = put (seedPayload world) := by
  simp only [writeSeed, fdWriteU32, fdWriteBytes, put_put, seedPayload]

theorem writeTime_eq (world : World) : writeTime world = put (timePayload world) := by
  simp only [writeTime, fdWriteU64, put_put, timePayload, timeScales]

theorem writeTileCounts_eq (world : World) :
    writeTileCounts world = put (tileCountsPayload world) := by
  simp only [writeTileCounts, fdWriteU32, put_put, tileCountsPayload]

theorem writePending_eq : writePending = put pendingPayload := by
  simp only [writePending, fdWriteU32, put_put, pendingPayload]

theorem emits_content (before : List UInt8) (world : World) :
    EmitsAt before (writeContent world) () (contentPayload world) := by
  apply EmitsAt.bind
  · exact emitsAt_put before _
  · exact emitsAt_forM (fun pack _ front => writePack_eq pack ▸ emitsAt_put front _) _

theorem emits_map (before : List UInt8) (world : World) :
    EmitsAt before (writeMap world) () (mapPayload world) := by
  apply EmitsAt.bind
  · exact writeTileCounts_eq world ▸ emitsAt_put before _
  · apply EmitsAt.bind
    · exact emitsAt_forM (fun tile _ front => writeTile_eq tile ▸ emitsAt_put front _) _
    · exact writeRegion_eq world.region ▸ emitsAt_put _ _

theorem emits_entities (before : List UInt8) (world : World) :
    EmitsAt before (writeEntities world) () (entityPayload world) := by
  apply EmitsAt.bind
  · exact emitsAt_put before _
  · apply EmitsAt.bind
    · exact emitsAt_put _ _
    · exact emitsAt_forM (fun entity _ front => writeEntity_eq entity ▸ emitsAt_put front _) _

theorem emits_header (before : List UInt8) (tag : UInt16) (length : Nat) :
    EmitsAt before (fdBeginSectionAt tag length) (before.length + 16)
      (fdBeginSection tag length) := by
  have heq : fdBeginSectionAt tag length =
      (put (fdBeginSection tag length) >>= fun _ => position) := by
    simp only [fdBeginSectionAt, fdWriteU16, fdWriteU32, fdWriteU64, put_put_bind,
      fdBeginSection, sectionHeader]
  have hemits := (emitsAt_put before (fdBeginSection tag length)).bind
    (f := fun _ => position) (emitsAt_position _)
  rw [List.append_nil, List.length_append] at hemits
  rw [heq]
  exact hemits

/-- A section whose payload is written in the announced length. -/
theorem emits_section {body : SaveWriter Unit} {payload : List UInt8} (tag : UInt16) {length : Nat}
    (hlength : payload.length = length)
    (hbody : ∀ front, EmitsAt front body () payload) (before : List UInt8) :
    EmitsAt before (writeSectionAt tag length body) () (writeSection tag length payload) := by
  subst hlength
  apply (emits_header before tag payload.length).bind
  apply (hbody (before ++ fdBeginSection tag payload.length)).bind
  have hfront : before.length + 16 = (before ++ fdBeginSection tag payload.length).length := by
    rw [List.length_append]
    rfl
  have hread := emitsAt_readBack (before ++ fdBeginSection tag payload.length) payload []
  rw [List.append_nil, ← hfront] at hread
  have hend := hread.bind (f := fun part => put (fdSha256 part).toList) (emitsAt_put _ _)
  rw [List.nil_append] at hend
  apply hend.cast
  rw [fdEndSection, List.take_length]

theorem emits_section_put {body : SaveWriter Unit} {payload : List UInt8} (tag : UInt16)
    {length : Nat} (hlength : payload.length = length) (hbody : body = put payload)
    (before : List UInt8) :
    EmitsAt before (writeSectionAt tag length body) () (writeSection tag length payload) :=
  emits_section tag hlength (fun front => hbody ▸ emitsAt_put front payload) before

theorem emits_footer (before : List UInt8) :
    EmitsAt before writeFooter () (fdFooterDigest before).toList := by
  have hread := emitsAt_readBack [] before []
  rw [List.append_nil, List.nil_append, List.length_nil] at hread
  have hend := hread.bind (f := fun bytes => fdWriteBytes (fdFooterDigest bytes).toList)
    (emitsAt_put _ _)
  rw [List.nil_append] at hend
  unfold writeFooter
  apply ((emitsAt_position before).bind _).cast (List.nil_append _)
  rw [List.append_nil]
  exact hend

/-- The stores of the writer, one after another, are the bytes of the save. -/
theorem emits_writeSave (world : World) : EmitsAt [] (writeSave world) () (saveBytes world) := by
  unfold writeSave
  refine EmitsAt.cast (EmitsAt.seq (emitsAt_put [] fdSaveMagic) <|
    (emits_section_put 1 manifestPayload_length writeManifest_eq _).seq <|
    (emits_section_put 2 (versionPayload_length world) (writeVersions_eq world) _).seq <|
    (emits_section_put 3 (configPayload_length world) (writeConfig_eq world) _).seq <|
    (emits_section 4 (contentPayload_length world) (fun front => emits_content front world) _).seq <|
    (emits_section_put 5 (seedPayload_length world) (writeSeed_eq world) _).seq <|
    (emits_section_put 6 (timePayload_length world) (writeTime_eq world) _).seq <|
    (emits_section 7 (mapPayload_length world) (fun front => emits_map front world) _).seq <|
    (emits_section 8 (entityPayload_length world) (fun front => emits_entities front world) _).seq <|
    (emits_section_put 9 counterPayload_length rfl _).seq <|
    (emits_section_put 10 pendingPayload_length writePending_eq _).seq <|
    (emits_section_put 11 (stateSha256_length world) rfl _).seq (emits_footer _)) ?_
  simp only [saveBytes, saveBody, List.nil_append, List.append_assoc]

end emits

/-- The save in the caller's memory is the save of the pure writer: on success its bytes stand
at the front and the rest is as it was, on failure nothing has changed. -/
theorem fdWorldSaveInto_eq {context : FdContext} {world : World} {buffer : List UInt8}
    {capacity : Nat} (hcapacity : capacity ≤ buffer.length) (hworld : world.Bounded) :
    fdWorldSaveInto context world buffer capacity =
      some (match fdWorldSave context world capacity with
        | .error failure => ⟨.error failure, 0, buffer⟩
        | .ok bytes => ⟨.ok (), bytes.length, bytes ++ buffer.drop bytes.length⟩) := by
  unfold fdWorldSaveInto
  cases hsize : fdWorldSaveSize context world with
  | error failure =>
      have hfail : fdWorldSave context world capacity = .error failure := by
        rw [fdWorldSave, hsize]
        rfl
      rw [hfail]
  | ok required =>
      have hrequired : required = saveSize world := by
        rw [fdWorldSaveSize, fdSaveSizeInternal_eq hworld] at hsize
        simp only at hsize
        split at hsize
        · cases hsize
        · exact (Except.ok.inj hsize).symm
      subst hrequired
      by_cases hshort : capacity < saveSize world
      · have hfail : fdWorldSave context world capacity =
            .error (fdDiagSet fdErrBufferTooSmall fdFieldBufferCapacity 0
              "save buffer is smaller than required size") := by
          rw [fdWorldSave, hsize, ok_bind, failIf_true hshort]
          rfl
        simp only [if_pos hshort, hfail]
      · have hwrite : fdWorldSave context world capacity = .ok (saveBytes world) := by
          rw [fdWorldSave, hsize, ok_bind, failIf_bind_of_not hshort,
            failIf_bind_of_not (by rw [saveBytes_length, not_not])]
        have hfits : (saveBytes world).length ≤ buffer.length := by
          rw [saveBytes_length]
          omega
        simp only [if_neg hshort, hwrite, (emits_writeSave world).run hfits, Option.map_some,
          saveBytes_length, ne_eq, not_true_eq_false, if_false]

end FrontierDirectorate
