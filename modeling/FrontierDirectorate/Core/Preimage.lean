import Mathlib
import FrontierDirectorate.Core.SaveRoundTrip

/-!
# The state preimage

The stream `fd_world_compute_hash` absorbs and the payloads of sections 3 to 8
carry the same state. Both are decomposed field by field; the counts that only
the save stores are determined by the validated map.
-/
namespace FrontierDirectorate
open ByteCodec

/-- The concatenated preimage of the state digest. -/
def stateStream (world : World) : List UInt8 := (statePieces world).flatten

theorem stateDigest_eq (world : World) : stateDigest world = fdSha256 (stateStream world) :=
  sha256Pieces_eq_flatten _

section stream

theorem flatten_tilePieces (tiles : List Tile) :
    (tiles.flatMap tilePieces).flatten = tileCodec.encodeAll tiles := by
  induction tiles with
  | nil => rfl
  | cons tile tiles ih =>
      rw [List.flatMap_cons, List.flatten_append, ih, Codec.encodeAll_cons]
      simp [tilePieces, tileCodec, encodeTile]

theorem flatten_packPieces (packs : List ContentPack) :
    (packs.flatMap packPieces).flatten = packCodec.encodeAll packs := by
  induction packs with
  | nil => rfl
  | cons pack packs ih =>
      rw [List.flatMap_cons, List.flatten_append, ih, Codec.encodeAll_cons]
      simp [packPieces, packCodec, encodePack]

theorem flatten_entityPieces (entities : List Entity) :
    (entities.flatMap entityPieces).flatten = entities.flatMap encodeEntity := by
  induction entities with
  | nil => rfl
  | cons entity entities ih =>
      rw [List.flatMap_cons, List.flatten_append, ih, List.flatMap_cons]
      simp [entityPieces, encodeEntity, encodeEntityHead]

theorem pair_toList {α : Type} (v : List.Vector α 2) : v.toList = [v.get 0, v.get 1] :=
  (congrArg List.Vector.toList (pair_eta v)).symm

theorem flatten_regionPieces (region : Region) :
    (regionPieces region).flatten = encodeRegion region := by
  simp [regionPieces, pair_toList, encodeRegion]

/-- The preimage as one string of encoded parts. -/
theorem stateStream_eq (world : World) : stateStream world =
    (domainPieces "FrontierDirectorate/State/v1").flatten ++
    (fdStoreU32Le world.config.generatorVersion ++ (fdStoreU32Le world.config.rulesetVersion ++
    (fdStoreU32Le fdRngRegistryVersion ++ (fdStoreU32Le world.config.width ++
    (fdStoreU32Le world.config.height ++ (fdStoreU32Le world.config.attemptBudget ++
    (fdStoreU32Le world.config.forestDensityPpm ++ (fdStoreU32Le world.config.hillDensityPpm ++
    (fdStoreU32Le world.config.wetlandDensityPpm ++ (fdStoreU32Le world.config.referenceMode ++
    (world.rootSeedLe.toList ++ (fdStoreU32Le (UInt32.ofNat world.content.packs.length) ++
    (packCodec.encodeAll world.content.packs ++ (fdStoreU64Le world.tick ++
    (fdStoreU32Le (UInt32.ofNat world.tileCount) ++ (tileCodec.encodeAll world.tiles ++
    (fdStoreU32Le fdU01EntityCount ++ (world.entities.toList.flatMap encodeEntity ++
    encodeRegion world.region)))))))))))))))))) := by
  simp only [stateStream, statePieces, List.flatten_append, List.flatten_cons,
    List.map_cons, List.map_nil, flatten_tilePieces, flatten_packPieces, flatten_entityPieces,
    flatten_regionPieces, List.append_assoc, List.nil_append, List.cons_append]

end stream

section injectivity

/-! Streams that start with the same kind of field agree field by field. -/

theorem fdStoreU32Le_append_inj {a b : UInt32} {s t : List UInt8} :
    fdStoreU32Le a ++ s = fdStoreU32Le b ++ t ↔ a = b ∧ s = t := u32Codec.encode_append_inj

theorem fdStoreU64Le_append_inj {a b : UInt64} {s t : List UInt8} :
    fdStoreU64Le a ++ s = fdStoreU64Le b ++ t ↔ a = b ∧ s = t := u64Codec.encode_append_inj

theorem toList_append_inj {n : Nat} {a b : List.Vector UInt8 n} {s t : List UInt8} :
    a.toList ++ s = b.toList ++ t ↔ a = b ∧ s = t := (fixed n).encode_append_inj

theorem encodeRegion_inj {a b : Region} : encodeRegion a = encodeRegion b ↔ a = b :=
  ⟨fun h => regionCodec.encode_injective h, fun h => h ▸ rfl⟩

/-- Counts below the word size are read off their encoding. -/
theorem ofNat_inj_of_le {a b : Nat} (ha : a ≤ fdMaxTiles) (hb : b ≤ fdMaxTiles) :
    UInt32.ofNat a = UInt32.ofNat b ↔ a = b := by
  constructor
  · intro h
    have hnat := congrArg UInt32.toNat h
    rw [UInt32.toNat_ofNat', UInt32.toNat_ofNat'] at hnat
    unfold fdMaxTiles at ha hb
    omega
  · exact fun h => h ▸ rfl

/-- The length in front of a name tells where it ends. -/
theorem encodeEntity_append_inj {a b : Entity} (ha : a.name.length < fdMaxNameBytes)
    (hb : b.name.length < fdMaxNameBytes) {s t : List UInt8} :
    encodeEntity a ++ s = encodeEntity b ++ t ↔ a = b ∧ s = t := by
  constructor
  · intro h
    simp only [encodeEntity, encodeEntityHead, List.append_assoc, fdStoreU32Le_append_inj,
      fdStoreU64Le_append_inj] at h
    obtain ⟨hid, hkind, hx, hy, hregion, howner, hlength, hrest⟩ := h
    unfold fdMaxNameBytes at ha hb
    have hlen : a.name.length = b.name.length :=
      (ofNat_inj_of_le (by unfold fdMaxTiles; omega) (by unfold fdMaxTiles; omega)).mp hlength
    obtain ⟨hname, hst⟩ := List.append_inj hrest hlen
    cases a
    cases b
    simp only at hid hkind hx hy hregion howner hname
    subst hid hkind hx hy hregion howner hname
    exact ⟨rfl, hst⟩
  · rintro ⟨rfl, rfl⟩
    rfl

theorem flatMap_encodeEntity_append_inj {as bs : List Entity} (hlen : as.length = bs.length)
    (ha : ∀ entity ∈ as, entity.name.length < fdMaxNameBytes)
    (hb : ∀ entity ∈ bs, entity.name.length < fdMaxNameBytes) {s t : List UInt8} :
    as.flatMap encodeEntity ++ s = bs.flatMap encodeEntity ++ t ↔ as = bs ∧ s = t := by
  induction as generalizing bs with
  | nil =>
      obtain rfl : bs = [] := List.length_eq_zero_iff.mp hlen.symm
      simp
  | cons a as ih =>
      cases bs with
      | nil => cases hlen
      | cons b bs =>
          have htail := ih (Nat.succ.inj hlen) (fun e he => ha e (List.mem_cons_of_mem a he))
            fun e he => hb e (List.mem_cons_of_mem b he)
          rw [List.flatMap_cons, List.flatMap_cons, List.append_assoc, List.append_assoc,
            encodeEntity_append_inj (ha a List.mem_cons_self) (hb b List.mem_cons_self), htail,
            List.cons.injEq, and_assoc]

end injectivity

/-- The configuration with the fields no format carries at their defaults. -/
def WorldConfig.normalized (config : WorldConfig) : WorldConfig :=
  { config with
    structSize := sizeofFdWorldConfig
    abiVersion := fdAbiVersion
    reserved := List.Vector.replicate 8 0 }

theorem WorldConfig.normalized_inj {a b : WorldConfig} : a.normalized = b.normalized ↔
    a.width = b.width ∧ a.height = b.height ∧ a.attemptBudget = b.attemptBudget ∧
      a.generatorVersion = b.generatorVersion ∧ a.rulesetVersion = b.rulesetVersion ∧
      a.forestDensityPpm = b.forestDensityPpm ∧ a.hillDensityPpm = b.hillDensityPpm ∧
      a.wetlandDensityPpm = b.wetlandDensityPpm ∧ a.referenceMode = b.referenceMode := by
  simp only [WorldConfig.normalized, WorldConfig.mk.injEq, true_and, and_true]

/-- Agreement in every authoritative field. -/
structure SameState (v w : World) : Prop where
  config : v.config.normalized = w.config.normalized
  seed : v.rootSeedLe = w.rootSeedLe
  packs : v.content.packs = w.content.packs
  tick : v.tick = w.tick
  tiles : v.tiles = w.tiles
  entities : v.entities = w.entities
  region : v.region = w.region

variable {v w : World}

theorem ContentTable.packs_le (content : ContentTable) : content.packs.length ≤ fdMaxTiles :=
  content.count_le.trans (by decide)

/-- The preimage is injective on the authoritative state of bounded worlds. -/
theorem stateStream_inj (hv : v.Bounded) (hw : w.Bounded) :
    stateStream v = stateStream w ↔ SameState v w := by
  constructor
  · intro h
    rw [stateStream_eq, stateStream_eq, List.append_cancel_left_eq] at h
    simp only [fdStoreU32Le_append_inj, toList_append_inj] at h
    obtain ⟨hgenerator, hruleset, -, hwidth, hheight, hbudget, hforest, hhill, hwetland, hmode,
      hseed, hcount, h⟩ := h
    rw [ofNat_inj_of_le v.content.packs_le w.content.packs_le] at hcount
    rw [packCodec.encodeAll_append_inj hcount, fdStoreU64Le_append_inj,
      fdStoreU32Le_append_inj] at h
    obtain ⟨hpacks, htick, htileCount, h⟩ := h
    rw [ofNat_inj_of_le hv.tiles hw.tiles] at htileCount
    rw [tileCodec.encodeAll_append_inj htileCount, fdStoreU32Le_append_inj,
      flatMap_encodeEntity_append_inj (by simp) hv.names hw.names, encodeRegion_inj] at h
    obtain ⟨htiles, -, hentities, hregion⟩ := h
    exact ⟨WorldConfig.normalized_inj.mpr ⟨hwidth, hheight, hbudget, hgenerator, hruleset, hforest,
      hhill, hwetland, hmode⟩, hseed, hpacks, htick, htiles, List.Vector.eq _ _ hentities, hregion⟩
  · rintro ⟨hconfig, hseed, hpacks, htick, htiles, hentities, hregion⟩
    obtain ⟨hwidth, hheight, hbudget, hgenerator, hruleset, hforest, hhill, hwetland, hmode⟩ :=
      WorldConfig.normalized_inj.mp hconfig
    rw [stateStream_eq, stateStream_eq]
    simp only [World.tileCount, hwidth, hheight, hbudget, hgenerator, hruleset, hforest, hhill,
      hwetland, hmode, hseed, hpacks, htick, htiles, hentities, hregion]

/-- The cached digests are those of the current configuration and content. -/
structure World.Coherent (world : World) : Prop where
  config : world.configurationSha256 = fdHashConfigInternal world.config
  content : world.contentSha256 = fdHashContentInternal world.content.packs

theorem fdHashConfigInternal_normalized (config : WorldConfig) :
    fdHashConfigInternal config.normalized = fdHashConfigInternal config := rfl

theorem encodeConfigFields_normalized (config : WorldConfig) :
    encodeConfigFields config.normalized = encodeConfigFields config := rfl

theorem normalized_canonical (config : WorldConfig) : config.normalized.Canonical := ⟨rfl, rfl, rfl⟩

theorem encodeConfigFields_inj {a b : WorldConfig} :
    encodeConfigFields a = encodeConfigFields b ↔ a.normalized = b.normalized := by
  constructor
  · intro h
    have ha := decodeConfigFields_encodeConfigFields (normalized_canonical a) []
    have hb := decodeConfigFields_encodeConfigFields (normalized_canonical b) []
    rw [encodeConfigFields_normalized] at ha hb
    rw [← ha, ← hb, h]
  · intro h
    rw [← encodeConfigFields_normalized a, h, encodeConfigFields_normalized]

/-- The sections with the authoritative state. -/
def stateTags : List Nat := [3, 4, 5, 6, 7, 8]

theorem sameState_of_payloads (hv : v.Bounded) (hw : w.Bounded)
    (h : ∀ tag ∈ stateTags, savePayload v tag = savePayload w tag) : SameState v w := by
  have h3 : configPayload v = configPayload w := h 3 (by decide)
  have h4 : contentPayload v = contentPayload w := h 4 (by decide)
  have h5 : seedPayload v = seedPayload w := h 5 (by decide)
  have h6 : timePayload v = timePayload w := h 6 (by decide)
  have h7 : mapPayload v = mapPayload w := h 7 (by decide)
  have h8 : entityPayload v = entityPayload w := h 8 (by decide)
  have hfields : encodeConfigFields v.config = encodeConfigFields w.config :=
    List.append_inj_left h3 (by simp)
  obtain ⟨hcount, hpacks⟩ := fdStoreU32Le_append_inj.mp h4
  rw [ofNat_inj_of_le v.content.packs_le w.content.packs_le] at hcount
  have hpacks := packCodec.encodeAll_append_inj (s := []) (t := []) hcount |>.mp
    (by simpa only [List.append_nil] using hpacks)
  obtain ⟨hcounts, hmap⟩ := List.append_inj h7 (by simp)
  have htileCount := (fdStoreU32Le_append_inj.mp hcounts).1
  rw [ofNat_inj_of_le hv.tiles hw.tiles] at htileCount
  obtain ⟨htiles, hregion⟩ := (tileCodec.encodeAll_append_inj htileCount).mp hmap
  have hentities := (fdStoreU32Le_append_inj.mp (fdStoreU32Le_append_inj.mp h8).2).2
  have hentities := (flatMap_encodeEntity_append_inj (s := []) (t := []) (by simp) hv.names
    hw.names).mp (by simpa only [List.append_nil] using hentities)
  exact ⟨encodeConfigFields_inj.mp hfields, (toList_append_inj.mp h5).1, hpacks.1,
    (fdStoreU64Le_append_inj.mp h6).1, htiles, List.Vector.eq _ _ hentities.1,
    encodeRegion_inj.mp hregion⟩

/-- Worlds in the same state have the same map for the validator. -/
theorem SameState.sameMap (h : SameState v w) : SameMap v w :=
  have hconfig := WorldConfig.normalized_inj.mp h.config
  ⟨hconfig.1, hconfig.2.1, h.tiles, h.entities, h.region⟩

theorem payloads_of_sameState (hv : v.Invariants) (hw : w.Invariants) (hcv : v.Coherent)
    (hcw : w.Coherent) (h : SameState v w) :
    ∀ tag ∈ stateTags, savePayload v tag = savePayload w tag := by
  obtain ⟨hriver, hroad, hland⟩ := h.sameMap.counts_eq hv hw
  obtain ⟨hwidth, hheight, -⟩ := WorldConfig.normalized_inj.mp h.config
  have hfields := encodeConfigFields_inj.mpr h.config
  have hdigest : v.configurationSha256 = w.configurationSha256 := by
    rw [hcv.config, hcw.config, ← fdHashConfigInternal_normalized, h.config,
      fdHashConfigInternal_normalized]
  intro tag htag
  simp only [stateTags, List.mem_cons, List.not_mem_nil, or_false] at htag
  rcases htag with rfl | rfl | rfl | rfl | rfl | rfl
  · simp only [savePayload, configPayload, hfields, hdigest]
  · simp only [savePayload, contentPayload, h.packs]
  · simp only [savePayload, seedPayload, h.seed]
  · simp only [savePayload, timePayload, h.tick]
  · simp only [savePayload, mapPayload, tileCountsPayload, World.tileCount, h.tiles, h.region,
      hwidth, hheight, hriver, hroad, hland]
  · simp only [savePayload, entityPayload, h.entities]

end FrontierDirectorate
