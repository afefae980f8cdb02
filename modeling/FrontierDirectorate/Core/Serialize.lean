import Mathlib
import FrontierDirectorate.Core.Context
import FrontierDirectorate.Core.Hash
import FrontierDirectorate.Core.Inputs
import FrontierDirectorate.Core.Sections
import FrontierDirectorate.Core.Validate
import FrontierDirectorate.Core.Wire

/-!
# The save format

`fd_serialize.c`: the writer, the section parser, the decoder with its gates, and
the clone through a save.
-/
namespace FrontierDirectorate
open ByteCodec Checks

/-- Checked 64-bit addition and multiplication. -/
def fdU64Add (a b : Nat) : Option Nat := if uint64Max - a < b then none else some (a + b)

def fdU64Mul (a b : Nat) : Option Nat := if b ≠ 0 ∧ uint64Max / b < a then none else some (a * b)

abbrev fdSaveSectionCount : Nat := 11

/-- `FDVS` and the version byte. -/
def fdSaveMagic : List UInt8 := [0x46, 0x44, 0x56, 0x53, 0, 0, 0, 1]

def fdBeginSection (tag : UInt16) (length : Nat) : List UInt8 :=
  sectionHeader tag fdSectionCritical length

def fdEndSection (payload : List UInt8) (length : Nat) : List UInt8 :=
  (fdSha256 (payload.take length)).toList

/-- One section; `length` is what the source announces before it writes the payload. -/
def writeSection (tag : UInt16) (length : Nat) (payload : List UInt8) : List UInt8 :=
  fdBeginSection tag length ++ (payload ++ fdEndSection payload length)

def fdFooterDigest (bytes : List UInt8) : Digest :=
  sha256Pieces (domainPieces "FrontierDirectorate/Save/Footer/v1" ++ [bytes])

def manifestPayload : List UInt8 :=
  fdStoreU16Le fdSaveVersionMajor ++ (fdStoreU16Le fdSaveVersionMinor ++
    (fdStoreU16Le fdSaveVersionMajor ++ (fdStoreU16Le 0 ++
      (fdStoreU32Le (UInt32.ofNat fdSaveSectionCount) ++ fdStoreU32Le 0))))

def versionPayload (world : World) : List UInt8 :=
  fdStoreU32Le fdApiVersionMajor.toUInt32 ++ (fdStoreU32Le fdApiVersionMinor.toUInt32 ++
    (fdStoreU32Le fdApiVersionPatch.toUInt32 ++ (fdStoreU32Le world.config.generatorVersion ++
      (fdStoreU32Le world.config.rulesetVersion ++ (fdStoreU32Le fdSaveVersionMajor.toUInt32 ++
        (fdStoreU32Le fdSaveVersionMinor.toUInt32 ++ (fdStoreU32Le fdReplayVersionMajor.toUInt32 ++
          (fdStoreU32Le fdReplayVersionMinor.toUInt32 ++ fdStoreU32Le fdRngRegistryVersion))))))))

def configPayload (world : World) : List UInt8 :=
  encodeConfigFields world.config ++ world.configurationSha256.toList

def contentPayload (world : World) : List UInt8 :=
  fdStoreU32Le (UInt32.ofNat world.content.packs.length) ++ packCodec.encodeAll world.content.packs

def seedPayload (world : World) : List UInt8 :=
  world.rootSeedLe.toList ++ (fdStoreU32Le fdRngRegistryVersion ++ fdStoreU32Le 0)

/-- The time-scale constants after the current tick. -/
def timeScales : List UInt8 :=
  fdStoreU64Le 1 ++ (fdStoreU64Le fdOperationalTicks ++ (fdStoreU64Le 168 ++
    (fdStoreU64Le 720 ++ (fdStoreU64Le 2160 ++ fdStoreU64Le 8640))))

def timePayload (world : World) : List UInt8 := fdStoreU64Le world.tick ++ timeScales

/-- The six counts in front of the tiles. -/
def tileCountsPayload (world : World) : List UInt8 :=
  fdStoreU32Le (UInt32.ofNat world.tileCount) ++ (fdStoreU32Le world.config.width ++
    (fdStoreU32Le world.config.height ++ (fdStoreU32Le world.riverTileCount ++
      (fdStoreU32Le world.roadTileCount ++ fdStoreU32Le world.landTileCount))))

def mapPayload (world : World) : List UInt8 :=
  tileCountsPayload world ++ (tileCodec.encodeAll world.tiles ++ encodeRegion world.region)

def entityPayload (world : World) : List UInt8 :=
  fdStoreU32Le fdU01EntityCount ++ (fdStoreU32Le fdU01EntityCount ++
    world.entities.toList.flatMap encodeEntity)

def counterPayload : List UInt8 := fdStoreU32Le 0

def pendingPayload : List UInt8 :=
  fdStoreU32Le 0 ++ (fdStoreU32Le 0 ++ (fdStoreU32Le 0 ++ fdStoreU32Le 0))

def contentLength (world : World) : Nat := 4 + world.content.packs.length * 40

def mapLength (world : World) : Nat := 104 + world.tileCount * 24

def fdEntitySectionLength (world : World) : Nat :=
  world.entities.toList.foldl (fun length entity => length + (40 + entity.name.length)) 8

/-- Everything before the footer, in the order the source writes it. -/
def saveBody (world : World) : List UInt8 :=
  fdSaveMagic ++ (writeSection 1 16 manifestPayload ++ (writeSection 2 40 (versionPayload world) ++
    (writeSection 3 68 (configPayload world) ++
      (writeSection 4 (contentLength world) (contentPayload world) ++
        (writeSection 5 24 (seedPayload world) ++ (writeSection 6 56 (timePayload world) ++
          (writeSection 7 (mapLength world) (mapPayload world) ++
            (writeSection 8 (fdEntitySectionLength world) (entityPayload world) ++
              (writeSection 9 4 counterPayload ++ (writeSection 10 16 pendingPayload ++
                writeSection 11 32 world.stateSha256.toList))))))))))

def saveBytes (world : World) : List UInt8 :=
  saveBody world ++ (fdFooterDigest (saveBody world)).toList

def fdSaveSizeInternal (world : World) : Except FdResult Nat :=
  let payloadTotal := 16 + 40 + 68 + contentLength world + 24 + 56 + mapLength world +
    fdEntitySectionLength world + 4 + 16 + 32
  let sectionOverhead := fdSaveSectionCount * 48
  match (do
    let total ← fdU64Add 8 payloadTotal
    let total ← fdU64Add total sectionOverhead
    fdU64Add total 32) with
  | some total => .ok total
  | none => .error fdErrCapacity

def saveBoundFailure : Fail :=
  fdDiagSet fdErrCapacity fdFieldBufferCapacity 0 "canonical save exceeds configured bound"

def fdWorldSaveSize (context : FdContext) (world : World) : Except Fail Nat :=
  match fdSaveSizeInternal world with
  | .error _ => .error saveBoundFailure
  | .ok size => if context.maxFileBytes.toNat < size then .error saveBoundFailure else .ok size

/-- The bytes written at the front of a buffer of `capacity` bytes. -/
def fdWorldSave (context : FdContext) (world : World) (capacity : Nat) :
    Except Fail (List UInt8) := do
  let required ← fdWorldSaveSize context world
  failIf (capacity < required)
    (fdDiagSet fdErrBufferTooSmall fdFieldBufferCapacity 0
      "save buffer is smaller than required size")
  failIf ((saveBytes world).length ≠ required)
    (fdDiagSet fdErrInternal fdFieldFileBytes 0 "save size implementation mismatch")
  .ok (saveBytes world)

/-- An entry of the section table; the length is that of the payload. -/
structure Section where
  payload : List UInt8
  flags : UInt16
  present : Bool
deriving DecidableEq

def Section.absent : Section := ⟨[], 0, false⟩

/-- The section table, indexed by tag. -/
abbrev Sections := Nat → Section

structure SectionScan where
  sections : Sections
  previousTag : UInt16
  sectionCount : Nat

/-- The section at the front of `rest`, which runs up to the footer; its payload length. -/
def parseSaveSection (s : SectionScan) (rest : List UInt8) : Except Fail (SectionScan × Nat) := do
  let item := UInt32.ofNat s.sectionCount
  failIf (rest.length < 48)
    (fdDiagSet fdErrFormat fdFieldSection item "truncated save section header")
  let tag := fdLoadU16Le rest
  let flags := fdLoadU16Le (rest.drop 2)
  let reserved := fdLoadU32Le (rest.drop 4)
  let length := (fdLoadU64Le (rest.drop 8)).toNat
  failIf (tag ≤ s.previousTag ∨ reserved ≠ 0 ∨ flags &&& ~~~ fdSectionCritical ≠ 0)
    (fdDiagSet fdErrFormat fdFieldSection item "noncanonical save section header")
  failIf (uint64Max - 48 < length ∨ rest.length < 48 + length)
    (fdDiagSet fdErrFormat fdFieldSection item "save section length exceeds file")
  let payload := slice rest 16 length
  failIf ((fdSha256 payload).toList ≠ slice rest (16 + length) 32)
    (fdDiagSet fdErrChecksum fdFieldSection item "save section payload digest mismatch")
  failIf (11 < tag ∧ flags &&& fdSectionCritical ≠ 0)
    (fdDiagSet fdErrVersion fdFieldSection item "unknown critical save section")
  let sections := if tag ≤ 11 then
    Function.update s.sections tag.toNat ⟨payload, flags, true⟩ else s.sections
  failIf (64 < s.sectionCount + 1)
    (fdDiagSet fdErrCapacity fdFieldSection (UInt32.ofNat (s.sectionCount + 1))
      "too many save sections")
  .ok (⟨sections, tag, s.sectionCount + 1⟩, length)

def parseSaveLoop : SectionScan → List UInt8 → Except Fail SectionScan :=
  sectionLoop parseSaveSection

/-- The second pass over the frames, which only counts them. -/
def recountSections (rest : List UInt8) : Nat :=
  if _h : rest = [] then 0
  else recountSections (rest.drop (48 + (fdLoadU64Le (rest.drop 8)).toNat)) + 1
termination_by rest.length
decreasing_by
  have : 0 < rest.length := List.length_pos_iff.mpr ‹_›
  simp only [List.length_drop]
  omega

/-- The section table and the number of sections of a file of at least 88 bytes. -/
def fdParseSaveSections (bytes : List UInt8) : Except Fail (Sections × Nat) := do
  let framed := slice bytes 8 (bytes.length - 40)
  let s ← parseSaveLoop ⟨fun _ => .absent, 0, 0⟩ framed
  forEach (List.range' 1 11) (fun () tag =>
    failIf (¬ (s.sections tag).present ∨ (s.sections tag).flags &&& fdSectionCritical = 0)
      (fdDiagSet fdErrFormat fdFieldSection (UInt32.ofNat tag)
        "missing mandatory save section")) ()
  .ok (s.sections, recountSections framed)

def fdU01NameValid (name : List UInt8) : Bool :=
  decide (name.length ≠ 0) && decide (name.length < fdMaxNameBytes) &&
    name.all fun b => decide (0x20 ≤ b) && decide (b ≤ 0x7e)

/-- What `fd_decode_world` knows before it allocates. -/
structure SaveHeader where
  config : WorldConfig
  packs : List ContentPack
  contentSha256 : Digest
  tileBytes : Nat

/-- `n` packs with their order check; `p` starts at the pack numbered `index`. -/
def decodePacks (p : List UInt8) : (n : Nat) → (index : Nat) → (previous : Option UInt64) →
    Except Fail (List ContentPack)
  | 0, _, _ => .ok []
  | n + 1, index, previous => do
      let pack := decodePack p
      failIf (pack.stableId = 0 ∨ previous.any (pack.stableId ≤ ·))
        (fdDiagSet fdErrFormat fdFieldContent (UInt32.ofNat index)
          "noncanonical content pack order")
      let packs ← decodePacks (p.drop packCodec.width) n (index + 1) (some pack.stableId)
      .ok (pack :: packs)

def contentManifest (packs : List ContentPack) : ContentManifest :=
  ⟨sizeofFdContentManifest, fdAbiVersion, 0, packs⟩

/-- The checks of `fd_decode_world` up to the allocations. -/
def decodeHeader (context : FdContext) (sections : Sections) (parsedSectionCount : Nat) :
    Except Fail SaveHeader := do
  let manifest := (sections 1).payload
  failIf (manifest.length < 16)
    (fdDiagSet fdErrFormat fdFieldSection 1 "save manifest prefix is truncated")
  let fileMinor := fdLoadU16Le (manifest.drop 2)
  failIf (fdLoadU16Le manifest ≠ fdSaveVersionMajor ∨
      fdLoadU16Le (manifest.drop 4) ≠ fdSaveVersionMajor ∨
      fdSaveVersionMinor < fdLoadU16Le (manifest.drop 6) ∨
      fdLoadU32Le (manifest.drop 8) ≠ UInt32.ofNat parsedSectionCount ∨
      fdLoadU32Le (manifest.drop 12) ≠ 0)
    (fdDiagSet fdErrVersion fdFieldFormatVersion 0 "unsupported or inconsistent save manifest")
  let versions := (sections 2).payload
  failIf (versions.length < 40 ∨
      fdLoadU32Le versions ≠ fdApiVersionMajor.toUInt32 ∨
      fdLoadU32Le (versions.drop 12) ≠ fdGeneratorVersion ∨
      fdLoadU32Le (versions.drop 16) ≠ fdRulesetVersion ∨
      fdLoadU32Le (versions.drop 20) ≠ fdSaveVersionMajor.toUInt32 ∨
      fdLoadU32Le (versions.drop 24) ≠ fileMinor.toUInt32 ∨
      fdLoadU32Le (versions.drop 28) ≠ fdReplayVersionMajor.toUInt32 ∨
      fdLoadU32Le (versions.drop 36) ≠ fdRngRegistryVersion)
    (fdDiagSet fdErrVersion fdFieldFormatVersion 0 "unsupported authoritative version tuple")
  let payload := (sections 3).payload
  failIf (payload.length ≠ 68)
    (fdDiagSet fdErrFormat fdFieldSection 3 "invalid configuration section length")
  let config := decodeConfigFields payload
  failIf (config.width < fdMinWidth ∨ fdMaxWidth < config.width ∨
      config.height < fdMinHeight ∨ fdMaxHeight < config.height ∨
      fdMaxTiles < config.width.toNat * config.height.toNat ∨
      config.attemptBudget = 0 ∨ fdMaxGenerationAttempts < config.attemptBudget ∨
      config.generatorVersion ≠ fdGeneratorVersion ∨ config.rulesetVersion ≠ fdRulesetVersion ∨
      config.referenceMode ≠ 1)
    (fdDiagSet fdErrFormat fdFieldWidth 0 "invalid canonical world configuration")
  failIf ((fdHashConfigInternal config).toList ≠ slice payload 36 32)
    (fdDiagSet fdErrChecksum fdFieldContent 3 "configuration hash mismatch")
  let payload := (sections 4).payload
  failIf (payload.length < 4)
    (fdDiagSet fdErrFormat fdFieldSection 4 "truncated content section")
  let contentCount := (fdLoadU32Le payload).toNat
  failIf (fdMaxContentPacks < contentCount ∨ payload.length ≠ 4 + contentCount * 40)
    (fdDiagSet fdErrCapacity fdFieldContent (fdLoadU32Le payload)
      "invalid content pack count or length")
  let packs ← decodePacks (payload.drop 4) contentCount 0 none
  let impossible := fdDiagSet fdErrFormat fdFieldTerrainDensity 0
    "save contains impossible generator configuration"
  match fdValidateGenerationInputsInternal config (contentManifest packs) with
  | .error _ => .error impossible
  | .ok () =>
    failIf (config.forestDensityPpm = 0 ∨ config.hillDensityPpm = 0 ∨
        config.wetlandDensityPpm = 0) impossible
    let payload := (sections 5).payload
    failIf (payload.length ≠ 24 ∨ fdLoadU32Le (payload.drop 16) ≠ fdRngRegistryVersion ∨
        fdLoadU32Le (payload.drop 20) ≠ 0)
      (fdDiagSet fdErrVersion fdFieldSection 5 "invalid RNG identity section")
    let time := (sections 6).payload
    failIf (time.length ≠ 56)
      (fdDiagSet fdErrFormat fdFieldSection 6 "invalid time section length")
    failIf (fdLoadU64Le (time.drop 8) ≠ 1 ∨ fdLoadU64Le (time.drop 16) ≠ fdOperationalTicks ∨
        fdLoadU64Le (time.drop 24) ≠ 168 ∨ fdLoadU64Le (time.drop 32) ≠ 720 ∨
        fdLoadU64Le (time.drop 40) ≠ 2160 ∨ fdLoadU64Le (time.drop 48) ≠ 8640)
      (fdDiagSet fdErrFormat fdFieldTick 0 "time-scale definition mismatch")
    let tileBytes := config.width.toNat * config.height.toNat * sizeofFdTile
    failIf (context.maxLiveWorldBytes.toNat < tileBytes + sizeofFdWorld)
      (fdDiagSet fdErrCapacity fdFieldBufferCapacity 0 "loaded world exceeds context live bound")
    .ok ⟨config, packs, fdHashContentInternal packs, tileBytes⟩

/-- The entity at `position` and the position after it. -/
def decodeEntity (payload : List UInt8) (position : Nat) : Except FdResult (Entity × Nat) := do
  failIf (payload.length - position < 40) fdErrFormat
  let p := payload.drop position
  let nameLength := (fdLoadU32Le (p.drop 36)).toNat
  let name := slice p 40 nameLength
  failIf (fdMaxNameBytes ≤ nameLength ∨ payload.length - position - 40 < nameLength ∨
    ¬ fdU01NameValid name) fdErrFormat
  .ok ({ id := fdLoadU64Le p
         kind := fdLoadU32Le (p.drop 8)
         x := fdLoadU32Le (p.drop 12)
         y := fdLoadU32Le (p.drop 16)
         regionId := fdLoadU64Le (p.drop 20)
         ownerId := fdLoadU64Le (p.drop 28)
         name := name }, position + (40 + nameLength))

/-- `n` entities from `position`, and the position after the last. -/
def decodeEntities (payload : List UInt8) :
    (n : Nat) → (position : Nat) → Except FdResult (List.Vector Entity n × Nat)
  | 0, position => .ok (.nil, position)
  | n + 1, position => do
      let (entity, position) ← decodeEntity payload position
      let (entities, position) ← decodeEntities payload n position
      .ok (entity ::ᵥ entities, position)

/-- The fields of the loaded world, all but the state digest. -/
def loadedWorld (header : SaveHeader) (sections : Sections) (entities : List.Vector Entity 6) :
    World where
  config := header.config
  rootSeedLe := bytesOf 16 (sections 5).payload
  content := ContentTable.copy header.packs
  configurationSha256 := bytesOf 32 ((sections 3).payload.drop 36)
  contentSha256 := header.contentSha256
  tick := fdLoadU64Le (sections 6).payload
  tiles := tileCodec.decodeAll (header.config.width.toNat * header.config.height.toNat)
    ((sections 7).payload.drop 24)
  entities := entities
  region := decodeRegion ((sections 7).payload.drop
    (24 + header.config.width.toNat * header.config.height.toNat * 24))
  riverTileCount := fdLoadU32Le ((sections 7).payload.drop 12)
  roadTileCount := fdLoadU32Le ((sections 7).payload.drop 16)
  landTileCount := fdLoadU32Le ((sections 7).payload.drop 20)
  riverRaisedTileCount := 0
  riverMinCarveCm := 0
  allocationSize := UInt32.ofNat (header.tileBytes + sizeofFdWorld)
  stateSha256 := List.Vector.replicate 32 0

/-- The checks of `fd_decode_world` after the allocations; a failure is its `load_fail`. -/
def decodeBody (header : SaveHeader) (sections : Sections) : Except FdResult World := do
  let tileCount := header.config.width.toNat * header.config.height.toNat
  let tick := fdLoadU64Le (sections 6).payload
  failIf (tick % fdOperationalTicks ≠ 0 ∨ UInt64.ofNat uint64Max - fdOperationalTicks < tick)
    fdErrFormat
  let map := (sections 7).payload
  failIf (map.length ≠ 104 + tileCount * 24 ∨ (fdLoadU32Le map).toNat ≠ tileCount ∨
    fdLoadU32Le (map.drop 4) ≠ header.config.width ∨
    fdLoadU32Le (map.drop 8) ≠ header.config.height) fdErrFormat
  let payload := (sections 8).payload
  failIf (payload.length < 8 ∨ fdLoadU32Le payload ≠ fdU01EntityCount ∨
    fdLoadU32Le (payload.drop 4) ≠ fdU01EntityCount) fdErrFormat
  let (entities, position) ← decodeEntities payload 6 8
  failIf (position ≠ payload.length) fdErrFormat
  let pending := (sections 10).payload
  failIf ((sections 9).payload.length ≠ 4 ∨ fdLoadU32Le (sections 9).payload ≠ 0 ∨
    pending.length ≠ 16 ∨ fdLoadU32Le pending ≠ 0 ∨ fdLoadU32Le (pending.drop 4) ≠ 0 ∨
    fdLoadU32Le (pending.drop 8) ≠ 0 ∨ fdLoadU32Le (pending.drop 12) ≠ 0 ∨
    (sections 11).payload.length ≠ 32) fdErrFormat
  let world := loadedWorld header sections entities
  failIf (¬ world.Valid) fdErrState
  failIf ((fdWorldComputeHash world).stateSha256.toList ≠ (sections 11).payload) fdErrChecksum
  .ok (fdWorldComputeHash world)

/-- Allocation failures and the shared failure of the decoder. -/
def outOfMemory (message : String) : Fail := fdDiagSet fdErrOutOfMemory fdFieldNone 0 message

def loadFailure (code : FdResult) : Fail :=
  fdDiagSet code fdFieldSection 0 "save payload failed canonical state validation"

def worldBytes : UInt64 := UInt64.ofNat sizeofFdWorld

def fdDecodeWorld (context : FdContext) (sections : Sections) (parsedSectionCount : Nat) :
    StateM Ledger (Except Fail World) := do
  match decodeHeader context sections parsedSectionCount with
  | .error failure => return .error failure
  | .ok header =>
    let tileBytes := UInt64.ofNat header.tileBytes
    if !(← fdContextAlloc context worldBytes) then
      return .error (outOfMemory "loaded world allocation failed")
    if !(← fdContextAlloc context tileBytes) then
      fdContextFree true worldBytes
      return .error (outOfMemory "loaded tile allocation failed")
    match decodeBody header sections with
    | .error code =>
        fdContextFree true tileBytes
        fdContextFree true worldBytes
        return .error (loadFailure code)
    | .ok world =>
        addHandle
        return .ok world

/-- The checks of `fd_world_load` before the decoder. -/
def loadSections (context : FdContext) (bytes : List UInt8) : Except Fail (Sections × Nat) := do
  failIf (context.maxFileBytes.toNat < bytes.length)
    (fdDiagSet fdErrCapacity fdFieldFileBytes 0 "save exceeds configured file bound")
  failIf (bytes.length < 8 + 32 + 48)
    (fdDiagSet fdErrFormat fdFieldFileBytes 0 "save is truncated")
  failIf (bytes.take 8 ≠ fdSaveMagic ∧ bytes.take 7 = fdSaveMagic.take 7)
    (fdDiagSet fdErrVersion fdFieldFormatVersion 0 "unsupported save major version")
  failIf (bytes.take 8 ≠ fdSaveMagic)
    (fdDiagSet fdErrFormat fdFieldFileBytes 0 "invalid save magic")
  failIf ((fdFooterDigest (bytes.take (bytes.length - 32))).toList ≠
      slice bytes (bytes.length - 32) 32)
    (fdDiagSet fdErrChecksum fdFieldFileBytes 0 "save footer digest mismatch")
  fdParseSaveSections bytes

def fdWorldLoad (context : FdContext) (bytes : List UInt8) :
    StateM Ledger (Except Fail World) :=
  match loadSections context bytes with
  | .error failure => pure (.error failure)
  | .ok (sections, count) => fdDecodeWorld context sections count

/-- `fd_world_clone_via_save`: save into a temporary buffer and load it back. -/
def fdWorldCloneViaSave (context : FdContext) (source : World) :
    StateM Ledger (Except Fail World) := do
  match fdWorldSaveSize context source with
  | .error failure => return .error failure
  | .ok size =>
    if !(← fdContextAlloc context (UInt64.ofNat size)) then
      return .error (outOfMemory "clone save allocation failed")
    let result ← match fdWorldSave context source size with
      | .error failure => pure (.error failure)
      | .ok bytes => fdWorldLoad context bytes
    fdContextFree true (UInt64.ofNat size)
    return result

def worldTileBytes (world : World) : UInt64 := UInt64.ofNat (world.tileCount * sizeofFdTile)

def fdWorldDestroy (world : World) : StateM Ledger Unit := do
  fdContextFree true (worldTileBytes world)
  fdContextFree true worldBytes
  dropHandle

end FrontierDirectorate
