import Mathlib
import FrontierDirectorate.Core.SaveDecode

/-!
# Save and load

What every live world of a context satisfies, that a load only returns such
worlds, and that the loader reads a saved one back.
-/
namespace FrontierDirectorate
open ByteCodec Checks Accounting

/-- The state invariant of live worlds. -/
structure World.Sound (context : FdContext) (world : World) : Prop where
  config : world.config.Canonical
  inputs : InputsValid world.config (contentManifest world.content.packs)
  densities : world.config.forestDensityPpm ≠ 0 ∧ world.config.hillDensityPpm ≠ 0 ∧
    world.config.wetlandDensityPpm ≠ 0
  liveBound : world.tileCount * sizeofFdTile + sizeofFdWorld ≤ context.maxLiveWorldBytes.toNat
  allocation : world.allocationSize =
    UInt32.ofNat (world.tileCount * sizeofFdTile + sizeofFdWorld)
  configDigest : world.configurationSha256 = fdHashConfigInternal world.config
  contentDigest : world.contentSha256 = fdHashContentInternal world.content.packs
  stateHash : world.stateSha256 = stateDigest world
  tick : world.tick % fdOperationalTicks = 0
  valid : world.Valid
  names : ∀ entity ∈ world.entities.toList, fdU01NameValid entity.name = true

theorem World.Sound.bounded {context : FdContext} {world : World} (h : world.Sound context) :
    world.Bounded := (world.valid_iff.mp h.valid).bounded

/-- The fields the format does not carry are cleared by a load. -/
def World.reloaded (world : World) : World :=
  { world with riverRaisedTileCount := 0, riverMinCarveCm := 0 }

/-- The state digest reads the fields of the preimage only. -/
theorem stateDigest_congr {v w : World} (hconfig : v.config = w.config)
    (hseed : v.rootSeedLe = w.rootSeedLe) (hcontent : v.content = w.content)
    (htick : v.tick = w.tick) (htiles : v.tiles = w.tiles) (hentities : v.entities = w.entities)
    (hregion : v.region = w.region) : stateDigest v = stateDigest w := by
  cases v
  cases w
  simp only at hconfig hseed hcontent htick htiles hentities hregion
  subst hconfig hseed hcontent htick htiles hentities hregion
  rfl

theorem stateDigest_computeHash (world : World) :
    stateDigest (fdWorldComputeHash world) = stateDigest world :=
  stateDigest_congr rfl rfl rfl rfl rfl rfl rfl

theorem valid_computeHash {world : World} (h : world.Valid) : (fdWorldComputeHash world).Valid :=
  SameMap.valid_of_valid (v := world) ⟨rfl, rfl, rfl, rfl, rfl⟩ rfl rfl rfl h

section save

variable {context : FdContext} {world : World}

/-- What the first half of the decoder makes of a saved world. -/
def saveHeader (world : World) : SaveHeader :=
  ⟨world.config, world.content.packs, fdHashContentInternal world.content.packs,
    world.tileCount * sizeofFdTile⟩

theorem World.Sound.tileCount_eq (h : world.Sound context) :
    world.tileCount = world.config.width.toNat * world.config.height.toNat :=
  (world.valid_iff.mp h.valid).bounds.2.2.2.2.1

theorem contentPayload_count (world : World) :
    (fdLoadU32Le (contentPayload world)).toNat = world.content.packs.length := by
  have hle := world.content.count_le
  rw [contentPayload, fdLoadU32Le_store, UInt32.toNat_ofNat']
  exact Nat.mod_eq_of_lt (by unfold fdMaxContentPacks at hle; omega)

theorem contentPayload_packs (world : World) :
    packCodec.decodeAll world.content.packs.length ((contentPayload world).drop 4) =
      world.content.packs := by
  have hdrop : (contentPayload world).drop 4 = packCodec.encodeAll world.content.packs := by
    simp [contentPayload]
  have hread := packCodec.decodeAll_encodeAll world.content.packs []
  rw [List.append_nil] at hread
  rw [hdrop, hread]

theorem configPayload_digest (world : World) :
    (configPayload world).drop 36 = world.configurationSha256.toList :=
  List.drop_left' (encodeConfigFields_length world.config)

theorem slice_configPayload (world : World) :
    slice (configPayload world) 36 32 = world.configurationSha256.toList := by
  rw [slice, configPayload_digest]
  exact List.take_of_length_le (by simp)

theorem decodedHeader_save (h : world.Sound context) :
    DecodedHeader context (saveTable world) 11 (saveHeader world) where
  manifest := by
    have hpayload : (saveTable world 1).payload = manifestPayload := rfl
    rw [hpayload]
    decide
  versions := by
    have hpayload : (saveTable world 2).payload = versionPayload world := rfl
    have hmanifest : (saveTable world 1).payload = manifestPayload := rfl
    have hminor : fdLoadU16Le (manifestPayload.drop 2) = 0 := by decide
    rw [hpayload, hmanifest, hminor]
    refine ⟨(versionPayload_length world).ge, ?_⟩
    simp [versionPayload, h.inputs.versions]
  configuration := by
    refine ⟨configPayload_length world, ?_, ?_⟩
    · exact (decodeConfigFields_encodeConfigFields h.config _).symm
    · exact (congrArg List.Vector.toList h.configDigest.symm).trans (slice_configPayload world).symm
  content := by
    refine ⟨?_, ?_, ?_, ?_⟩
    · exact le_of_le_of_eq (Nat.le_add_right 4 _) (contentPayload_length world).symm
    · exact le_of_eq_of_le (contentPayload_count world) world.content.count_le
    · change (contentPayload world).length = 4 + (fdLoadU32Le (contentPayload world)).toNat * 40
      rw [contentPayload_count, contentPayload_length, contentLength]
    · change world.content.packs = packCodec.decodeAll
        (fdLoadU32Le (contentPayload world)).toNat ((contentPayload world).drop 4)
      rw [contentPayload_count, contentPayload_packs]
  contentSha := rfl
  inputs := h.inputs
  densities := h.densities
  seed := by
    refine ⟨seedPayload_length world, ?_, ?_⟩
    · change fdLoadU32Le ((seedPayload world).drop 16) = _
      simp [seedPayload]
    · change fdLoadU32Le ((seedPayload world).drop (4 + 16)) = _
      simp [seedPayload, -Nat.reduceAdd]
  time := by
    refine ⟨rfl, ?_⟩
    change fdLoadU64Le ((timePayload world).drop 8) = _ ∧ fdLoadU64Le ((timePayload world).drop 16) = _ ∧
      fdLoadU64Le ((timePayload world).drop 24) = _ ∧ fdLoadU64Le ((timePayload world).drop 32) = _ ∧
      fdLoadU64Le ((timePayload world).drop 40) = _ ∧ fdLoadU64Le ((timePayload world).drop 48) = _
    simp [timePayload, timeScales]
  tileBytes := by
    rw [saveHeader, h.tileCount_eq]
  liveBound := h.liveBound

theorem mapPayload_drop (world : World) : (mapPayload world).drop 24 =
    tileCodec.encodeAll world.tiles ++ encodeRegion world.region :=
  List.drop_left' (tileCountsPayload_length world)

theorem mapPayload_region (world : World) :
    (mapPayload world).drop (24 + world.tileCount * 24) = encodeRegion world.region := by
  rw [← List.drop_drop, mapPayload_drop]
  exact List.drop_left' (tileCodec.encodeAll_length world.tiles)

/-- The decoder builds the saved world again. -/
theorem loadedWorld_save (h : world.Sound context) :
    loadedWorld (saveHeader world) (saveTable world) world.entities =
      { world.reloaded with stateSha256 := List.Vector.replicate 32 0 } := by
  have hcount : world.config.width.toNat * world.config.height.toNat = world.tileCount :=
    h.tileCount_eq.symm
  have hseed : bytesOf 16 (saveTable world 5).payload = world.rootSeedLe :=
    bytesOf_append world.rootSeedLe _
  have hdigest : bytesOf 32 ((saveTable world 3).payload.drop 36) = world.configurationSha256 := by
    have hread := bytesOf_append world.configurationSha256 []
    rw [List.append_nil] at hread
    exact (congrArg (bytesOf 32) (configPayload_digest world)).trans hread
  have htiles : tileCodec.decodeAll world.tileCount ((saveTable world 7).payload.drop 24) =
      world.tiles :=
    (congrArg (tileCodec.decodeAll world.tileCount) (mapPayload_drop world)).trans
      (tileCodec.decodeAll_encodeAll world.tiles _)
  have hregion : decodeRegion ((saveTable world 7).payload.drop (24 + world.tileCount * 24)) =
      world.region := by
    have hread := decodeRegion_encodeRegion world.region []
    rw [List.append_nil] at hread
    exact (congrArg decodeRegion (mapPayload_region world)).trans hread
  have hcounts : fdLoadU32Le ((mapPayload world).drop 12) = world.riverTileCount ∧
      fdLoadU32Le ((mapPayload world).drop 16) = world.roadTileCount ∧
      fdLoadU32Le ((mapPayload world).drop 20) = world.landTileCount := by
    simp [mapPayload, tileCountsPayload]
  have hriver : fdLoadU32Le ((saveTable world 7).payload.drop 12) = world.riverTileCount :=
    hcounts.1
  have hroad : fdLoadU32Le ((saveTable world 7).payload.drop 16) = world.roadTileCount :=
    hcounts.2.1
  have hland : fdLoadU32Le ((saveTable world 7).payload.drop 20) = world.landTileCount :=
    hcounts.2.2
  have htick : fdLoadU64Le (saveTable world 6).payload = world.tick :=
    fdLoadU64Le_store world.tick _
  have hcontent : ContentTable.copy world.content.packs = world.content := by
    have hpacks := ContentTable.copy_packs world.content.count_le
    cases hw : ContentTable.copy world.content.packs
    cases hc : world.content
    rw [hw, hc] at hpacks
    simp only at hpacks
    subst hpacks
    rfl
  simp only [loadedWorld, saveHeader, hcount, hseed, hdigest, htiles, hregion, hriver, hroad, hland,
    htick, hcontent, World.reloaded, ← h.contentDigest, ← h.allocation]

theorem entityPayload_drop (world : World) :
    (entityPayload world).drop 8 = world.entities.toList.flatMap encodeEntity := by
  simp [entityPayload]

theorem decodedBody_save (h : world.Sound context)
    (htick : world.tick ≤ UInt64.ofNat uint64Max - fdOperationalTicks) :
    DecodedBody (saveHeader world) (saveTable world) world.entities where
  tick := by
    have hread : fdLoadU64Le (saveTable world 6).payload = world.tick :=
      fdLoadU64Le_store world.tick _
    rw [hread]
    exact ⟨h.tick, htick⟩
  map := by
    have hcount : world.config.width.toNat * world.config.height.toNat = world.tileCount :=
      h.tileCount_eq.symm
    have htiles := h.bounded.tiles
    have hnat : (UInt32.ofNat world.tileCount).toNat = world.tileCount := by
      rw [UInt32.toNat_ofNat']
      exact Nat.mod_eq_of_lt (by unfold fdMaxTiles at htiles; omega)
    change (mapPayload world).length = 104 + world.config.width.toNat * world.config.height.toNat * 24 ∧
      (fdLoadU32Le (mapPayload world)).toNat =
        world.config.width.toNat * world.config.height.toNat ∧
      fdLoadU32Le ((mapPayload world).drop 4) = world.config.width ∧
      fdLoadU32Le ((mapPayload world).drop 8) = world.config.height
    rw [hcount, mapPayload_length, mapLength]
    simp [mapPayload, tileCountsPayload, hnat]
  entityCounts := by
    refine ⟨?_, fdLoadU32Le_store _ _, ?_⟩
    · change 8 ≤ (entityPayload world).length
      simp only [entityPayload, List.length_append, fdStoreU32Le_length]
      omega
    · change fdLoadU32Le ((entityPayload world).drop 4) = _
      simp [entityPayload]
  entityTable := by
    have hdrop := (entityPayload_drop world).trans (List.append_nil _).symm
    have hread := decodeEntities_encode h.names hdrop
    have hlen : 8 + (world.entities.toList.flatMap encodeEntity).length =
        (entityPayload world).length := by
      simp only [entityPayload, List.length_append, fdStoreU32Le_length]
      omega
    rw [hlen] at hread
    exact hread
  empty := by
    have hcounter : (saveTable world 9).payload = counterPayload := rfl
    have hpending : (saveTable world 10).payload = pendingPayload := rfl
    rw [hcounter, hpending]
    exact ⟨rfl, by decide, rfl, by decide, by decide, by decide, by decide,
      stateSha256_length world⟩
  valid := by
    rw [loadedWorld_save h]
    exact SameMap.valid_of_valid (v := world) ⟨rfl, rfl, rfl, rfl, rfl⟩ rfl rfl rfl h.valid
  state := by
    rw [loadedWorld_save h]
    exact congrArg List.Vector.toList h.stateHash.symm

/-- A sound world whose tick the loader takes is read back from its save. -/
theorem loadsTo_saveBytes (h : world.Sound context)
    (htick : world.tick ≤ UInt64.ofNat uint64Max - fdOperationalTicks)
    (hsize : saveSize world ≤ context.maxFileBytes.toNat) :
    LoadsTo context (saveBytes world) world.reloaded := by
  refine ⟨saveTable world, 11, saveHeader world, loadSections_saveBytes h.bounded hsize,
    decodeHeader_eq_ok_iff.mpr (decodedHeader_save h),
    decodeBody_eq_ok_iff.mpr ⟨world.entities, decodedBody_save h htick, ?_⟩⟩
  rw [loadedWorld_save h]
  change world.reloaded = { world.reloaded with stateSha256 := stateDigest world }
  rw [← h.stateHash]
  rfl

end save

section load

variable {context : FdContext} {sections : Sections} {count : Nat} {header : SaveHeader}
  {entities : List.Vector Entity 6}

theorem DecodedHeader.packs_length (h : DecodedHeader context sections count header) :
    header.packs.length = (fdLoadU32Le (sections 4).payload).toNat := by
  rw [h.content.2.2.2, Codec.decodeAll_length]

theorem DecodedHeader.copy_packs (h : DecodedHeader context sections count header) :
    (ContentTable.copy header.packs).packs = header.packs :=
  ContentTable.copy_packs (h.packs_length.trans_le h.content.2.1)

theorem DecodedHeader.configDigest (h : DecodedHeader context sections count header) :
    bytesOf 32 ((sections 3).payload.drop 36) = fdHashConfigInternal header.config := by
  apply List.Vector.eq
  rw [toList_bytesOf (by rw [List.length_drop, h.configuration.1])]
  exact h.configuration.2.2.symm

theorem loadedWorld_tileCount (header : SaveHeader) (sections : Sections)
    (entities : List.Vector Entity 6) :
    (fdWorldComputeHash (loadedWorld header sections entities)).tileCount =
      header.config.width.toNat * header.config.height.toNat :=
  tileCodec.decodeAll_length _ _

/-- A decoded world meets the state invariant. -/
theorem sound_loadedWorld (h : DecodedHeader context sections count header)
    (hbody : DecodedBody header sections entities) :
    (fdWorldComputeHash (loadedWorld header sections entities)).Sound context where
  config := by
    change header.config.Canonical
    rw [h.configuration.2.1]
    exact decodeConfigFields_canonical _
  inputs := by
    change InputsValid header.config (contentManifest (ContentTable.copy header.packs).packs)
    rw [h.copy_packs]
    exact h.inputs
  densities := h.densities
  liveBound := by
    rw [loadedWorld_tileCount, ← h.tileBytes]
    exact h.liveBound
  allocation := by
    rw [loadedWorld_tileCount, ← h.tileBytes]
    rfl
  configDigest := h.configDigest
  contentDigest := by
    change header.contentSha256 = fdHashContentInternal (ContentTable.copy header.packs).packs
    rw [h.copy_packs]
    exact h.contentSha
  stateHash := (stateDigest_computeHash _).symm
  tick := hbody.tick.1
  valid := valid_computeHash hbody.valid
  names := (decodeEntities_eq_ok hbody.entityCounts.1 hbody.entityTable).1

/-- Only sound worlds are loaded, and only with a tick a step can still advance. -/
theorem LoadsTo.sound {bytes : List UInt8} {world : World} (h : LoadsTo context bytes world) :
    world.Sound context ∧ world.tick ≤ UInt64.ofNat uint64Max - fdOperationalTicks := by
  obtain ⟨sections, count, header, -, hheader, hbody⟩ := h
  obtain ⟨entities, hdecoded, rfl⟩ := decodeBody_eq_ok_iff.mp hbody
  exact ⟨sound_loadedWorld (decodeHeader_eq_ok_iff.mp hheader) hdecoded, hdecoded.tick.2⟩

/-- The manifest and version sections are those of the current writer. -/
structure CurrentVersion (sections : Sections) : Prop where
  manifestLength : (sections 1).payload.length = 16
  versionLength : (sections 2).payload.length = 40
  fileMinor : fdLoadU16Le ((sections 1).payload.drop 2) = fdSaveVersionMinor
  apiMinor : fdLoadU32Le ((sections 2).payload.drop 4) = fdApiVersionMinor.toUInt32
  apiPatch : fdLoadU32Le ((sections 2).payload.drop 8) = fdApiVersionPatch.toUInt32
  replayMinor : fdLoadU32Le ((sections 2).payload.drop 32) = fdReplayVersionMinor.toUInt32

/-! Each section of a current file is what the writer makes of the loaded world. -/

theorem manifestPayload_eq (h : DecodedHeader context sections 11 header)
    (hcurrent : CurrentVersion sections) : manifestPayload = (sections 1).payload := by
  obtain ⟨hlen, hmajor, hread, hminor, hcount, hzero⟩ := h.manifest
  have hlength := hcurrent.manifestLength
  have hfile := hcurrent.fileMinor
  generalize (sections 1).payload = p at *
  have hminor : fdLoadU16Le (p.drop 6) = 0 :=
    UInt16.toNat_inj.mp (Nat.le_zero.mp (UInt16.le_iff_toNat_le.mp hminor))
  have h0 := fdStoreU16Le_load_drop p 0 (by omega)
  have h2 := fdStoreU16Le_load_drop p 2 (by omega)
  have h4 := fdStoreU16Le_load_drop p 4 (by omega)
  have h6 := fdStoreU16Le_load_drop p 6 (by omega)
  have h8 := fdStoreU32Le_load_drop p 8 (by omega)
  have h12 := fdStoreU32Le_load_drop p 12 (by omega)
  rw [List.drop_zero, hmajor] at h0
  rw [hfile] at h2
  rw [hread] at h4
  rw [hminor] at h6
  rw [hcount] at h8
  rw [hzero] at h12
  have hjoin : slice p 0 2 ++ (slice p 2 2 ++ (slice p 4 2 ++ (slice p 6 2 ++
      (slice p 8 4 ++ slice p 12 4)))) = p := by
    simp only [slice_append_slice, Nat.reduceAdd]
    exact slice_all hlength
  rw [← hjoin, ← h0, ← h2, ← h4, ← h6, ← h8, ← h12]
  rfl

theorem versionPayload_eq (h : DecodedHeader context sections count header)
    (hcurrent : CurrentVersion sections) {world : World} (hconfig : world.config = header.config) :
    versionPayload world = (sections 2).payload := by
  obtain ⟨-, hapi, hgenerator, hruleset, hsave, hfile, hreplay, hrng⟩ := h.versions
  have hlength := hcurrent.versionLength
  have hminor := hcurrent.apiMinor
  have hpatch := hcurrent.apiPatch
  have hreplayMinor := hcurrent.replayMinor
  rw [hcurrent.fileMinor] at hfile
  generalize (sections 2).payload = p at *
  have h0 := fdStoreU32Le_load_drop p 0 (by omega)
  have h4 := fdStoreU32Le_load_drop p 4 (by omega)
  have h8 := fdStoreU32Le_load_drop p 8 (by omega)
  have h12 := fdStoreU32Le_load_drop p 12 (by omega)
  have h16 := fdStoreU32Le_load_drop p 16 (by omega)
  have h20 := fdStoreU32Le_load_drop p 20 (by omega)
  have h24 := fdStoreU32Le_load_drop p 24 (by omega)
  have h28 := fdStoreU32Le_load_drop p 28 (by omega)
  have h32 := fdStoreU32Le_load_drop p 32 (by omega)
  have h36 := fdStoreU32Le_load_drop p 36 (by omega)
  rw [List.drop_zero, hapi] at h0
  rw [hminor] at h4
  rw [hpatch] at h8
  rw [hgenerator] at h12
  rw [hruleset] at h16
  rw [hsave] at h20
  rw [hfile] at h24
  rw [hreplay] at h28
  rw [hreplayMinor] at h32
  rw [hrng] at h36
  have hjoin : slice p 0 4 ++ (slice p 4 4 ++ (slice p 8 4 ++ (slice p 12 4 ++ (slice p 16 4 ++
      (slice p 20 4 ++ (slice p 24 4 ++ (slice p 28 4 ++ (slice p 32 4 ++ slice p 36 4)))))))) =
        p := by
    simp only [slice_append_slice, Nat.reduceAdd]
    exact slice_all hlength
  rw [← hjoin, ← h0, ← h4, ← h8, ← h12, ← h16, ← h20, ← h24, ← h28, ← h32, ← h36, versionPayload,
    hconfig, h.inputs.versions.1, h.inputs.versions.2]

theorem configPayload_eq (h : DecodedHeader context sections count header) {world : World}
    (hconfig : world.config = header.config)
    (hdigest : world.configurationSha256 = fdHashConfigInternal header.config) :
    configPayload world = (sections 3).payload := by
  obtain ⟨hlength, hread, hhash⟩ := h.configuration
  rw [configPayload, hconfig, hdigest, hhash, hread,
    encodeConfigFields_decodeConfigFields _ (by omega), ← slice_zero,
    slice_append_slice _ rfl]
  exact slice_all hlength

theorem contentPayload_eq (h : DecodedHeader context sections count header) {world : World}
    (hpacks : world.content.packs = header.packs) :
    contentPayload world = (sections 4).payload := by
  obtain ⟨hfour, hcount, hlength, hread⟩ := h.content
  have hnumber : UInt32.ofNat header.packs.length = fdLoadU32Le (sections 4).payload := by
    rw [h.packs_length, UInt32.ofNat_toNat]
  have hhead := fdStoreU32Le_load_drop (sections 4).payload 0 (by omega)
  have hentries := packCodec.encodeAll_decodeAll (fdLoadU32Le (sections 4).payload).toNat
    ((sections 4).payload.drop 4) (by rw [List.length_drop, hlength]; simp [packCodec])
  rw [List.drop_zero] at hhead
  rw [contentPayload, hpacks, hnumber, hread, hhead, hentries]
  change slice _ 0 4 ++ slice _ 4 _ = _
  rw [slice_append_slice _ rfl]
  exact slice_all hlength

theorem seedPayload_eq (h : DecodedHeader context sections count header) {world : World}
    (hseed : world.rootSeedLe = bytesOf 16 (sections 5).payload) :
    seedPayload world = (sections 5).payload := by
  obtain ⟨hlength, hregistry, hcounters⟩ := h.seed
  have h16 := fdStoreU32Le_load_drop (sections 5).payload 16 (by omega)
  have h20 := fdStoreU32Le_load_drop (sections 5).payload 20 (by omega)
  rw [hregistry] at h16
  rw [hcounters] at h20
  rw [seedPayload, hseed, toList_bytesOf (by omega), h16, h20, ← slice_zero]
  simp only [slice_append_slice, Nat.reduceAdd]
  exact slice_all hlength

theorem timePayload_eq (h : DecodedHeader context sections count header) {world : World}
    (htick : world.tick = fdLoadU64Le (sections 6).payload) :
    timePayload world = (sections 6).payload := by
  obtain ⟨hlength, hunit, hday, hweek, hmonth, hquarter, hyear⟩ := h.time
  generalize (sections 6).payload = p at *
  have h0 := fdStoreU64Le_load_drop p 0 (by omega)
  have h8 := fdStoreU64Le_load_drop p 8 (by omega)
  have h16 := fdStoreU64Le_load_drop p 16 (by omega)
  have h24 := fdStoreU64Le_load_drop p 24 (by omega)
  have h32 := fdStoreU64Le_load_drop p 32 (by omega)
  have h40 := fdStoreU64Le_load_drop p 40 (by omega)
  have h48 := fdStoreU64Le_load_drop p 48 (by omega)
  rw [List.drop_zero] at h0
  rw [hunit] at h8
  rw [hday] at h16
  rw [hweek] at h24
  rw [hmonth] at h32
  rw [hquarter] at h40
  rw [hyear] at h48
  rw [timePayload, htick, timeScales, h0, h8, h16, h24, h32, h40, h48]
  simp only [slice_append_slice, Nat.reduceAdd]
  exact slice_all hlength

theorem mapPayload_eq (hbody : DecodedBody header sections entities) :
    mapPayload (fdWorldComputeHash (loadedWorld header sections entities)) =
      (sections 7).payload := by
  obtain ⟨hlength, hcount, hwidth, hheight⟩ := hbody.map
  have hnumber : UInt32.ofNat
      (fdWorldComputeHash (loadedWorld header sections entities)).tileCount =
        fdLoadU32Le (sections 7).payload := by
    rw [loadedWorld_tileCount, ← hcount, UInt32.ofNat_toNat]
  have htiles : tileCodec.encodeAll (fdWorldComputeHash (loadedWorld header sections entities)).tiles
      = slice (sections 7).payload 24
        (header.config.width.toNat * header.config.height.toNat * 24) :=
    tileCodec.encodeAll_decodeAll _ _ (by rw [List.length_drop, hlength]; simp only [tileCodec]; omega)
  have hregion : encodeRegion (fdWorldComputeHash (loadedWorld header sections entities)).region =
      slice (sections 7).payload
        (24 + header.config.width.toNat * header.config.height.toNat * 24) 80 :=
    encodeRegion_decodeRegion _ (by rw [List.length_drop, hlength]; omega)
  have hcounts : tileCountsPayload (fdWorldComputeHash (loadedWorld header sections entities)) =
      slice (sections 7).payload 0 24 := by
    have h0 := fdStoreU32Le_load_drop (sections 7).payload 0 (by omega)
    have h4 := fdStoreU32Le_load_drop (sections 7).payload 4 (by omega)
    have h8 := fdStoreU32Le_load_drop (sections 7).payload 8 (by omega)
    have h12 := fdStoreU32Le_load_drop (sections 7).payload 12 (by omega)
    have h16 := fdStoreU32Le_load_drop (sections 7).payload 16 (by omega)
    have h20 := fdStoreU32Le_load_drop (sections 7).payload 20 (by omega)
    rw [List.drop_zero] at h0
    rw [hwidth] at h4
    rw [hheight] at h8
    rw [tileCountsPayload, hnumber]
    simp only [fdWorldComputeHash, loadedWorld, h0, h4, h8, h12, h16, h20, slice_append_slice,
      Nat.reduceAdd]
  rw [mapPayload, hcounts, htiles, hregion, slice_append_slice _ rfl, slice_append_slice _ rfl]
  exact slice_all (by rw [hlength]; omega)

theorem entityPayload_eq (hbody : DecodedBody header sections entities) :
    entityPayload (fdWorldComputeHash (loadedWorld header sections entities)) =
      (sections 8).payload := by
  obtain ⟨hlength, htotal, hused⟩ := hbody.entityCounts
  obtain ⟨-, hend, -, hread⟩ := decodeEntities_eq_ok hlength hbody.entityTable
  have h0 := fdStoreU32Le_load_drop (sections 8).payload 0 (by omega)
  have h4 := fdStoreU32Le_load_drop (sections 8).payload 4 (by omega)
  rw [List.drop_zero, htotal] at h0
  rw [hused] at h4
  change fdStoreU32Le fdU01EntityCount ++ (fdStoreU32Le fdU01EntityCount ++
    entities.toList.flatMap encodeEntity) = (sections 8).payload
  have hjoin : slice (sections 8).payload 0 4 ++ (slice (sections 8).payload 4 4 ++
      slice (sections 8).payload 8 (entities.toList.flatMap encodeEntity).length) =
        (sections 8).payload := by
    rw [slice_append_slice _ rfl, slice_append_slice _ rfl]
    exact slice_all (by rw [hend]; omega)
  rw [hread, ← h0, ← h4] at hjoin
  exact hjoin

theorem counterPayload_eq (hbody : DecodedBody header sections entities) :
    counterPayload = (sections 9).payload := by
  obtain ⟨hlength, hzero, -⟩ := hbody.empty
  have h0 := fdStoreU32Le_load_drop (sections 9).payload 0 (by omega)
  rw [List.drop_zero, hzero] at h0
  rw [counterPayload, h0]
  exact slice_all hlength

theorem pendingPayload_eq (hbody : DecodedBody header sections entities) :
    pendingPayload = (sections 10).payload := by
  obtain ⟨-, -, hlength, hzero, hone, htwo, hthree, -⟩ := hbody.empty
  have h0 := fdStoreU32Le_load_drop (sections 10).payload 0 (by omega)
  have h4 := fdStoreU32Le_load_drop (sections 10).payload 4 (by omega)
  have h8 := fdStoreU32Le_load_drop (sections 10).payload 8 (by omega)
  have h12 := fdStoreU32Le_load_drop (sections 10).payload 12 (by omega)
  rw [List.drop_zero, hzero] at h0
  rw [hone] at h4
  rw [htwo] at h8
  rw [hthree] at h12
  have hjoin : slice (sections 10).payload 0 4 ++ (slice (sections 10).payload 4 4 ++
      (slice (sections 10).payload 8 4 ++ slice (sections 10).payload 12 4)) =
        (sections 10).payload := by
    simp only [slice_append_slice, Nat.reduceAdd]
    exact slice_all hlength
  rw [← hjoin, ← h0, ← h4, ← h8, ← h12]
  rfl

/-- The table of a current file is the table of the loaded world. -/
theorem savePayload_eq (h : DecodedHeader context sections 11 header)
    (hbody : DecodedBody header sections entities) (hcurrent : CurrentVersion sections) :
    ∀ tag ∈ knownTags,
      savePayload (fdWorldComputeHash (loadedWorld header sections entities)) tag.toNat =
        (sections tag.toNat).payload := by
  intro tag htag
  simp only [knownTags, List.mem_cons, List.not_mem_nil, or_false] at htag
  rcases htag with rfl | rfl | rfl | rfl | rfl | rfl | rfl | rfl | rfl | rfl | rfl
  · exact manifestPayload_eq h hcurrent
  · exact versionPayload_eq h hcurrent rfl
  · exact configPayload_eq h rfl h.configDigest
  · exact contentPayload_eq h h.copy_packs
  · exact seedPayload_eq h rfl
  · exact timePayload_eq h rfl
  · exact mapPayload_eq hbody
  · exact entityPayload_eq hbody
  · exact counterPayload_eq hbody
  · exact pendingPayload_eq hbody
  · exact hbody.state

/-- A file decodes to one world. -/
theorem LoadsTo.unique {bytes : List UInt8} {v w : World} (hv : LoadsTo context bytes v)
    (hw : LoadsTo context bytes w) : v = w := by
  obtain ⟨table, parsed, header, htable, hheader, hbody⟩ := hv
  obtain ⟨table', parsed', header', htable', hheader', hbody'⟩ := hw
  rw [htable] at htable'
  obtain ⟨rfl, rfl⟩ : table = table' ∧ parsed = parsed' := by simpa using htable'
  rw [hheader] at hheader'
  cases hheader'
  rw [hbody] at hbody'
  exact Except.ok.inj hbody'

/-- What a save of a sound world loads to, and when it loads at all. -/
theorem loadsTo_saveBytes_iff {v w : World} (h : w.Sound context)
    (hsize : saveSize w ≤ context.maxFileBytes.toNat) :
    LoadsTo context (saveBytes w) v ↔
      w.tick ≤ UInt64.ofNat uint64Max - fdOperationalTicks ∧ v = w.reloaded := by
  constructor
  · intro hv
    have htick : w.tick ≤ UInt64.ofNat uint64Max - fdOperationalTicks := by
      obtain ⟨table, parsed, header, htable, -, hbody⟩ := hv
      rw [loadSections_saveBytes h.bounded hsize] at htable
      cases htable
      obtain ⟨entities, hdecoded, -⟩ := decodeBody_eq_ok_iff.mp hbody
      have hread : fdLoadU64Le (saveTable w 6).payload = w.tick := fdLoadU64Le_store w.tick _
      rw [← hread]
      exact hdecoded.tick.2
    exact ⟨htick, hv.unique (loadsTo_saveBytes h htick hsize)⟩
  · rintro ⟨htick, rfl⟩
    exact loadsTo_saveBytes h htick hsize

section clone

variable {world clone : World} {s : Ledger}

/-- The sizes a bounded world may be saved with. -/
theorem fdWorldSaveSize_eq_ok_iff {size : Nat} (h : world.Bounded) :
    fdWorldSaveSize context world = .ok size ↔
      size = saveSize world ∧ saveSize world ≤ context.maxFileBytes.toNat := by
  rw [fdWorldSaveSize, fdSaveSizeInternal_eq h]
  simp only
  split
  · next hmax =>
      constructor
      · intro hsize
        cases hsize
      · rintro ⟨-, hle⟩
        omega
  · next hmax =>
      constructor
      · intro hsize
        exact ⟨(Except.ok.inj hsize).symm, by omega⟩
      · rintro ⟨rfl, -⟩
        rfl

/-- When a bounded world is saved, and as what. -/
theorem fdWorldSave_eq_ok_iff {capacity : Nat} {bytes : List UInt8} (h : world.Bounded) :
    fdWorldSave context world capacity = .ok bytes ↔
      bytes = saveBytes world ∧ saveSize world ≤ context.maxFileBytes.toNat ∧
        saveSize world ≤ capacity := by
  constructor
  · intro hsave
    obtain ⟨size, hsize, hrest⟩ := bind_eq_ok.mp hsave
    obtain ⟨rfl, hmax⟩ := (fdWorldSaveSize_eq_ok_iff h).mp hsize
    simp only [failIf_bind_eq_ok, not_lt] at hrest
    obtain ⟨hcapacity, -, hbytes⟩ := hrest
    exact ⟨(Except.ok.inj hbytes).symm, hmax, hcapacity⟩
  · rintro ⟨rfl, hmax, hcapacity⟩
    exact fdWorldSave_eq h hmax hcapacity

/-- A clone is the world as a load would return it. -/
theorem clone_eq_of_ok (h : world.Sound context)
    (hclone : (fdWorldCloneViaSave context world s).1 = .ok clone) :
    clone = world.reloaded ∧ saveSize world ≤ context.maxFileBytes.toNat ∧
      world.tick ≤ UInt64.ofNat uint64Max - fdOperationalTicks := by
  unfold fdWorldCloneViaSave at hclone
  cases hsize : fdWorldSaveSize context world with
  | error failure =>
      simp only [hsize, run_pure] at hclone
      cases hclone
  | ok size =>
      obtain ⟨rfl, hmax⟩ := (fdWorldSaveSize_eq_ok_iff h.bounded).mp hsize
      simp only [hsize, fdWorldSave_eq h.bounded hmax le_rfl, run_bind, run_ite, run_pure] at hclone
      split at hclone
      · cases hclone
      · obtain ⟨htick, rfl⟩ := (loadsTo_saveBytes_iff h hmax).mp (fdWorldLoad_loadsTo hclone)
        exact ⟨rfl, hmax, htick⟩

theorem clone_of_neverFails (hcontext : context.NeverFails) (h : world.Sound context)
    (hmax : saveSize world ≤ context.maxFileBytes.toNat)
    (htick : world.tick ≤ UInt64.ofNat uint64Max - fdOperationalTicks) (s : Ledger) :
    (fdWorldCloneViaSave context world s).1 = .ok world.reloaded := by
  have hload := fdWorldLoad_of_loadsTo hcontext (loadsTo_saveBytes h htick hmax)
  have hpos : UInt64.ofNat (saveSize world) ≠ 0 := by
    have hle := saveSize_le h.bounded
    intro hzero
    have hnat := congrArg UInt64.toNat hzero
    rw [UInt64.toNat_ofNat', UInt64.toNat_zero] at hnat
    have hge : 824 ≤ saveSize world := by
      unfold saveSize
      omega
    omega
  unfold fdWorldCloneViaSave
  simp only [fdWorldSaveSize_eq h.bounded hmax, fdWorldSave_eq h.bounded hmax le_rfl, run_bind,
    run_ite, run_pure, fdContextAlloc_neverFails hcontext hpos, Bool.not_true, Bool.false_eq_true,
    if_false, hload]

end clone

/-- What the checks before the section parser leave of a file. -/
theorem loadSections_eq_ok {context : FdContext} {bytes : List UInt8} {table : Sections × Nat}
    (h : loadSections context bytes = .ok table) :
    bytes.length ≤ context.maxFileBytes.toNat ∧ 88 ≤ bytes.length ∧ bytes.take 8 = fdSaveMagic ∧
      (fdFooterDigest (bytes.take (bytes.length - 32))).toList =
        slice bytes (bytes.length - 32) 32 ∧ fdParseSaveSections bytes = .ok table := by
  simp only [loadSections, failIf_bind_eq_ok, not_lt, not_not] at h
  obtain ⟨hmax, hmin, -, hmagic, hfooter, hparse⟩ := h
  exact ⟨hmax, hmin, hmagic, hfooter, hparse⟩

/-- A current file is what the writer makes of the world it loads to. -/
theorem saveBytes_of_loadsTo {bytes : List UInt8} {world : World}
    (hsections : loadSections context bytes = .ok (sections, 11))
    (hcurrent : CurrentVersion sections) (h : LoadsTo context bytes world) :
    saveBytes world = bytes := by
  obtain ⟨table, parsed, header, htable, hheader, hbody⟩ := h
  rw [hsections] at htable
  obtain ⟨rfl, rfl⟩ : sections = table ∧ 11 = parsed := by simpa using htable
  obtain ⟨entities, hdecoded, rfl⟩ := decodeBody_eq_ok_iff.mp hbody
  obtain ⟨-, hmin, hmagic, hfooter, hparse⟩ := loadSections_eq_ok hsections
  have hframed := framed_eq_of_parse hparse
  have htables : tableFrames (saveTable (fdWorldComputeHash
      (loadedWorld header sections entities))) = tableFrames sections := by
    refine List.map_congr_left fun tag htag => ?_
    have hpayload := savePayload_eq (decodeHeader_eq_ok_iff.mp hheader) hdecoded hcurrent tag htag
    have hrange := (knownTags_range tag htag).2
    rw [List.mem_range'_1] at hrange
    simp only [saveTable, if_pos (show 1 ≤ tag.toNat ∧ tag.toNat ≤ 11 by omega), hpayload]
  have hbodyBytes : saveBody (fdWorldComputeHash (loadedWorld header sections entities)) =
      bytes.take (bytes.length - 32) := by
    rw [saveBody_eq, htables, ← hframed, ← hmagic, ← slice_zero, slice_append_slice _ rfl]
    rw [slice_zero]
    congr 1
    omega
  rw [saveBytes, hbodyBytes, hfooter, ← slice_zero, slice_append_slice _ (by omega)]
  exact slice_all (by omega)

end load

end FrontierDirectorate
