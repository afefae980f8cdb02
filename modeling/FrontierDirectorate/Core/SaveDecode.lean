import Mathlib
import FrontierDirectorate.Core.SaveLayout

/-!
# What the decoder accepts

`fd_decode_world` condition by condition: the content packs, the entities with
their names, the checks before the allocations and those after them.
-/
namespace FrontierDirectorate
open ByteCodec Checks Accounting

theorem decodePacks_eq (p : List UInt8) (n index : Nat) (previous : Option UInt64) :
    decodePacks p n index previous =
      match firstUnsortedPack previous index (packCodec.decodeAll n p) with
      | some i => .error (fdDiagSet fdErrFormat fdFieldContent (UInt32.ofNat i)
          "noncanonical content pack order")
      | none => .ok (packCodec.decodeAll n p) := by
  induction n generalizing p index previous with
  | zero => rfl
  | succ n ih =>
      have hcons : packCodec.decodeAll (n + 1) p =
          decodePack p :: packCodec.decodeAll n (p.drop packCodec.width) := rfl
      simp only [decodePacks, ih, hcons, firstUnsortedPack]
      by_cases hbad : (decodePack p).stableId = 0 ∨
          previous.any (fun x => decide ((decodePack p).stableId ≤ x)) = true
      · rw [failIf_true hbad, if_pos hbad]
        rfl
      · rw [failIf_false hbad, if_neg hbad, ok_bind]
        cases firstUnsortedPack (some (decodePack p).stableId) (index + 1)
          (packCodec.decodeAll n (p.drop packCodec.width)) <;> rfl

theorem decodePacks_eq_ok_iff {p : List UInt8} {n index : Nat} {previous : Option UInt64}
    {packs : List ContentPack} :
    decodePacks p n index previous = .ok packs ↔
      packs = packCodec.decodeAll n p ∧ firstUnsortedPack previous index packs = none := by
  rw [decodePacks_eq]
  constructor
  · intro h
    split at h
    · cases h
    · next hsorted =>
        cases h
        exact ⟨rfl, hsorted⟩
  · rintro ⟨rfl, hsorted⟩
    rw [hsorted]

section entities

theorem u01NameValid_length {name : List UInt8} (h : fdU01NameValid name = true) :
    name.length < fdMaxNameBytes := by
  simp only [fdU01NameValid, Bool.and_eq_true, decide_eq_true_eq] at h
  exact h.1.2

/-- The head of an entity, read at its position. -/
theorem encodeEntityHead_read {p : List UInt8} {name : List UInt8} (h : 40 ≤ p.length)
    (hname : UInt32.ofNat name.length = fdLoadU32Le (p.drop 36)) :
    encodeEntityHead ⟨fdLoadU64Le p, fdLoadU32Le (p.drop 8), fdLoadU32Le (p.drop 12),
      fdLoadU32Le (p.drop 16), fdLoadU64Le (p.drop 20), fdLoadU64Le (p.drop 28), name⟩ =
      slice p 0 40 := by
  have h0 := fdStoreU64Le_load_drop p 0 (by omega)
  rw [List.drop_zero] at h0
  simp only [encodeEntityHead, h0, hname]
  rw [fdStoreU32Le_load_drop p 8 (by omega), fdStoreU32Le_load_drop p 12 (by omega),
    fdStoreU32Le_load_drop p 16 (by omega), fdStoreU64Le_load_drop p 20 (by omega),
    fdStoreU64Le_load_drop p 28 (by omega), fdStoreU32Le_load_drop p 36 (by omega)]
  simp only [slice_append_slice, Nat.reduceAdd]

theorem slice_drop (p : List UInt8) (a k n : Nat) : slice (p.drop a) k n = slice p (a + k) n := by
  rw [slice, slice, List.drop_drop]

/-- An accepted entity is its own encoding at that position. -/
theorem decodeEntity_eq_ok {payload : List UInt8} {position : Nat} {entity : Entity} {next : Nat}
    (h : decodeEntity payload position = .ok (entity, next)) :
    fdU01NameValid entity.name = true ∧ next = position + (encodeEntity entity).length ∧
      next ≤ payload.length ∧
      slice payload position (encodeEntity entity).length = encodeEntity entity := by
  simp only [decodeEntity, failIf_bind_eq_ok, not_or, not_lt, not_not, not_le] at h
  obtain ⟨hroom, ⟨hshort, hfits, hvalid⟩, hresult⟩ := h
  simp only [Except.ok.injEq, Prod.mk.injEq] at hresult
  obtain ⟨rfl, rfl⟩ := hresult
  have hhead : 40 ≤ (payload.drop position).length := by
    rw [List.length_drop]
    omega
  generalize hlen : (fdLoadU32Le ((payload.drop position).drop 36)).toNat = n at *
  have hname : (slice (payload.drop position) 40 n).length = n := by
    rw [slice_length, List.length_drop]
    omega
  have hread : UInt32.ofNat (slice (payload.drop position) 40 n).length =
      fdLoadU32Le ((payload.drop position).drop 36) := by
    rw [hname, ← hlen, UInt32.ofNat_toNat]
  simp only [encodeEntity_length]
  refine ⟨hvalid, by rw [hname], by omega, ?_⟩
  rw [encodeEntity, encodeEntityHead_read hhead hread, slice_append_slice _ rfl, hname, slice_drop,
    Nat.add_zero]

/-- A valid entity that fits is read back. -/
theorem decodeEntity_encode {payload : List UInt8} {position : Nat} {entity : Entity}
    {rest : List UInt8} (hvalid : fdU01NameValid entity.name = true)
    (hdrop : payload.drop position = encodeEntity entity ++ rest) :
    decodeEntity payload position = .ok (entity, position + (encodeEntity entity).length) := by
  have hshort := u01NameValid_length hvalid
  have hroom : payload.length - position = 40 + entity.name.length + rest.length := by
    have hlen := congrArg List.length hdrop
    rw [List.length_drop, List.length_append, encodeEntity_length] at hlen
    exact hlen
  have hcount : (fdLoadU32Le ((payload.drop position).drop 36)).toNat = entity.name.length := by
    have hread : fdLoadU32Le ((payload.drop position).drop 36) =
        UInt32.ofNat entity.name.length := by
      rw [hdrop]
      simp [encodeEntity, encodeEntityHead]
    rw [hread, UInt32.toNat_ofNat']
    exact Nat.mod_eq_of_lt (by unfold fdMaxNameBytes at hshort; omega)
  have hname : slice (payload.drop position) 40 entity.name.length = entity.name := by
    have hskip : (payload.drop position).drop 40 = entity.name ++ rest := by
      rw [hdrop, encodeEntity, List.append_assoc]
      exact List.drop_left' (encodeEntityHead_length entity)
    rw [slice, hskip, List.take_left]
  rw [decodeEntity, failIf_bind_of_not (by omega)]
  simp only [hcount, hname]
  rw [failIf_bind_of_not]
  · rw [hdrop, encodeEntity_length]
    simp [encodeEntity, encodeEntityHead]
  · simp only [hvalid, not_true_eq_false, or_false, not_or, not_le, not_lt]
    exact ⟨hshort, by omega⟩

/-- Accepted entities are their own encodings, one after another. -/
theorem decodeEntities_eq_ok {payload : List UInt8} {n position next : Nat}
    {entities : List.Vector Entity n} (hposition : position ≤ payload.length)
    (h : decodeEntities payload n position = .ok (entities, next)) :
    (∀ entity ∈ entities.toList, fdU01NameValid entity.name = true) ∧
      next = position + (entities.toList.flatMap encodeEntity).length ∧
      next ≤ payload.length ∧
      slice payload position (entities.toList.flatMap encodeEntity).length =
        entities.toList.flatMap encodeEntity := by
  induction n generalizing position with
  | zero =>
      cases h
      exact ⟨by simp, rfl, hposition, by simp [slice]⟩
  | succ n ih =>
      simp only [decodeEntities, bind_eq_ok, Except.ok.injEq, Prod.mk.injEq, Prod.exists] at h
      obtain ⟨entity, middle, hentity, others, last, hothers, rfl, rfl⟩ := h
      obtain ⟨hvalid, rfl, hle, hslice⟩ := decodeEntity_eq_ok hentity
      obtain ⟨hvalids, rfl, hle', hslices⟩ := ih hle hothers
      rw [List.Vector.toList_cons, List.flatMap_cons, List.length_append]
      refine ⟨?_, by omega, by omega, ?_⟩
      · intro e he
        rcases List.mem_cons.mp he with rfl | he
        · exact hvalid
        · exact hvalids e he
      · rw [← slice_append_slice payload rfl, hslice, hslices]

theorem decodeEntities_encode {payload : List UInt8} {n position : Nat}
    {entities : List.Vector Entity n} {rest : List UInt8}
    (hvalid : ∀ entity ∈ entities.toList, fdU01NameValid entity.name = true)
    (hdrop : payload.drop position = entities.toList.flatMap encodeEntity ++ rest) :
    decodeEntities payload n position =
      .ok (entities, position + (entities.toList.flatMap encodeEntity).length) := by
  induction n generalizing position with
  | zero =>
      rw [entities.eq_nil]
      rfl
  | succ n ih =>
      obtain ⟨entity, others, rfl⟩ := entities.exists_eq_cons
      rw [List.Vector.toList_cons, List.flatMap_cons, List.append_assoc] at hdrop
      rw [List.Vector.toList_cons] at hvalid
      have hnext : payload.drop (position + (encodeEntity entity).length) =
          others.toList.flatMap encodeEntity ++ rest := by
        rw [← List.drop_drop, hdrop, List.drop_left]
      have hothers := ih (fun e he => hvalid e (List.mem_cons_of_mem entity he)) hnext
      simp only [decodeEntities, decodeEntity_encode (hvalid entity List.mem_cons_self) hdrop,
        ok_bind, hothers]
      rw [List.Vector.toList_cons, List.flatMap_cons, List.length_append, Nat.add_assoc]

end entities

/-- The checks before the allocations, and what they leave behind. -/
structure DecodedHeader (context : FdContext) (sections : Sections) (count : Nat)
    (header : SaveHeader) : Prop where
  manifest : 16 ≤ (sections 1).payload.length ∧
    fdLoadU16Le (sections 1).payload = fdSaveVersionMajor ∧
    fdLoadU16Le ((sections 1).payload.drop 4) = fdSaveVersionMajor ∧
    fdLoadU16Le ((sections 1).payload.drop 6) ≤ fdSaveVersionMinor ∧
    fdLoadU32Le ((sections 1).payload.drop 8) = UInt32.ofNat count ∧
    fdLoadU32Le ((sections 1).payload.drop 12) = 0
  versions : 40 ≤ (sections 2).payload.length ∧
    fdLoadU32Le (sections 2).payload = fdApiVersionMajor.toUInt32 ∧
    fdLoadU32Le ((sections 2).payload.drop 12) = fdGeneratorVersion ∧
    fdLoadU32Le ((sections 2).payload.drop 16) = fdRulesetVersion ∧
    fdLoadU32Le ((sections 2).payload.drop 20) = fdSaveVersionMajor.toUInt32 ∧
    fdLoadU32Le ((sections 2).payload.drop 24) =
      (fdLoadU16Le ((sections 1).payload.drop 2)).toUInt32 ∧
    fdLoadU32Le ((sections 2).payload.drop 28) = fdReplayVersionMajor.toUInt32 ∧
    fdLoadU32Le ((sections 2).payload.drop 36) = fdRngRegistryVersion
  configuration : (sections 3).payload.length = 68 ∧
    header.config = decodeConfigFields (sections 3).payload ∧
    (fdHashConfigInternal header.config).toList = slice (sections 3).payload 36 32
  content : 4 ≤ (sections 4).payload.length ∧
    (fdLoadU32Le (sections 4).payload).toNat ≤ fdMaxContentPacks ∧
    (sections 4).payload.length = 4 + (fdLoadU32Le (sections 4).payload).toNat * 40 ∧
    header.packs = packCodec.decodeAll (fdLoadU32Le (sections 4).payload).toNat
      ((sections 4).payload.drop 4)
  contentSha : header.contentSha256 = fdHashContentInternal header.packs
  inputs : InputsValid header.config (contentManifest header.packs)
  densities : header.config.forestDensityPpm ≠ 0 ∧ header.config.hillDensityPpm ≠ 0 ∧
    header.config.wetlandDensityPpm ≠ 0
  seed : (sections 5).payload.length = 24 ∧
    fdLoadU32Le ((sections 5).payload.drop 16) = fdRngRegistryVersion ∧
    fdLoadU32Le ((sections 5).payload.drop 20) = 0
  time : (sections 6).payload.length = 56 ∧
    fdLoadU64Le ((sections 6).payload.drop 8) = 1 ∧
    fdLoadU64Le ((sections 6).payload.drop 16) = fdOperationalTicks ∧
    fdLoadU64Le ((sections 6).payload.drop 24) = 168 ∧
    fdLoadU64Le ((sections 6).payload.drop 32) = 720 ∧
    fdLoadU64Le ((sections 6).payload.drop 40) = 2160 ∧
    fdLoadU64Le ((sections 6).payload.drop 48) = 8640
  tileBytes : header.tileBytes =
    header.config.width.toNat * header.config.height.toNat * sizeofFdTile
  liveBound : header.tileBytes + sizeofFdWorld ≤ context.maxLiveWorldBytes.toNat

theorem decodeHeader_eq_ok_iff {context : FdContext} {sections : Sections} {count : Nat}
    {header : SaveHeader} : decodeHeader context sections count = .ok header ↔
      DecodedHeader context sections count header := by
  simp only [decodeHeader, failIf_bind_eq_ok, not_or, not_lt, not_not, UInt32.not_lt,
    UInt16.not_lt, ne_eq]
  simp only [bind_eq_ok, decodePacks_eq_ok_iff]
  constructor
  · rintro ⟨hm, hmanifest, hversions, h3, hrange, hdigest, h4, hcontent, packs, ⟨hpacks, hsorted⟩,
      hrest⟩
    split at hrest
    · cases hrest
    · next hinputs =>
        simp only [failIf_bind_eq_ok, not_or, not_not, not_lt, Except.ok.injEq] at hrest
        obtain ⟨hdensities, hseed, h6, htime, hbound, rfl⟩ := hrest
        exact ⟨⟨hm, hmanifest⟩, hversions, ⟨h3, rfl, hdigest⟩, ⟨h4, hcontent.1, hcontent.2, hpacks⟩,
          rfl, inputsValid_iff.mp hinputs, hdensities, hseed, ⟨h6, htime⟩, rfl, hbound⟩
  · rintro ⟨⟨hm, hmanifest⟩, hversions, ⟨h3, hconfig, hdigest⟩, ⟨h4, hcount, hlength, hpacks⟩, hsha,
      hinputs, hdensities, hseed, ⟨h6, htime⟩, hbytes, hbound⟩
    have hsorted : firstUnsortedPack none 0 header.packs = none := hinputs.sorted
    rw [hconfig] at hinputs hdensities hdigest hbytes
    refine ⟨hm, hmanifest, hversions, h3, ?_, hdigest, h4, ⟨hcount, hlength⟩, header.packs,
      ⟨hpacks, hsorted⟩, ?_⟩
    · exact ⟨hinputs.width.1, hinputs.width.2, hinputs.height.1, hinputs.height.2, hinputs.tiles,
        hinputs.attemptBudget.1, hinputs.attemptBudget.2, hinputs.versions.1, hinputs.versions.2,
        hinputs.referenceMode⟩
    · rw [inputsValid_iff.mpr hinputs]
      simp only [failIf_bind_eq_ok, not_or, not_not, not_lt, Except.ok.injEq]
      refine ⟨hdensities, hseed, h6, htime, ?_, ?_⟩
      · rw [← hbytes]
        exact hbound
      · cases header
        simp only at hconfig hsha hbytes ⊢
        rw [hconfig, hsha, hbytes]

/-- The checks after the allocations, and the world they lead to. -/
structure DecodedBody (header : SaveHeader) (sections : Sections)
    (entities : List.Vector Entity 6) : Prop where
  tick : fdLoadU64Le (sections 6).payload % fdOperationalTicks = 0 ∧
    fdLoadU64Le (sections 6).payload ≤ UInt64.ofNat uint64Max - fdOperationalTicks
  map : (sections 7).payload.length =
      104 + header.config.width.toNat * header.config.height.toNat * 24 ∧
    (fdLoadU32Le (sections 7).payload).toNat =
      header.config.width.toNat * header.config.height.toNat ∧
    fdLoadU32Le ((sections 7).payload.drop 4) = header.config.width ∧
    fdLoadU32Le ((sections 7).payload.drop 8) = header.config.height
  entityCounts : 8 ≤ (sections 8).payload.length ∧
    fdLoadU32Le (sections 8).payload = fdU01EntityCount ∧
    fdLoadU32Le ((sections 8).payload.drop 4) = fdU01EntityCount
  entityTable : decodeEntities (sections 8).payload 6 8 =
    .ok (entities, (sections 8).payload.length)
  empty : (sections 9).payload.length = 4 ∧ fdLoadU32Le (sections 9).payload = 0 ∧
    (sections 10).payload.length = 16 ∧ fdLoadU32Le (sections 10).payload = 0 ∧
    fdLoadU32Le ((sections 10).payload.drop 4) = 0 ∧
    fdLoadU32Le ((sections 10).payload.drop 8) = 0 ∧
    fdLoadU32Le ((sections 10).payload.drop 12) = 0 ∧ (sections 11).payload.length = 32
  valid : (loadedWorld header sections entities).Valid
  state : (stateDigest (loadedWorld header sections entities)).toList = (sections 11).payload

theorem decodeBody_eq_ok_iff {header : SaveHeader} {sections : Sections} {world : World} :
    decodeBody header sections = .ok world ↔ ∃ entities, DecodedBody header sections entities ∧
      world = fdWorldComputeHash (loadedWorld header sections entities) := by
  simp only [decodeBody, failIf_bind_eq_ok, not_or, not_lt, not_not, UInt64.not_lt, ne_eq]
  rw [bind_eq_ok]
  simp only [Prod.exists, failIf_bind_eq_ok, not_or, not_not, Except.ok.injEq]
  constructor
  · rintro ⟨htick, hmap, hcounts, entities, position, hentities, rfl, hempty, hvalid, hstate, rfl⟩
    exact ⟨entities, ⟨htick, hmap, hcounts, hentities, hempty, hvalid, hstate⟩, rfl⟩
  · rintro ⟨entities, ⟨htick, hmap, hcounts, hentities, hempty, hvalid, hstate⟩, rfl⟩
    exact ⟨htick, hmap, hcounts, entities, _, hentities, rfl, hempty, hvalid, hstate, rfl⟩

/-- The file decodes to the world; whether a load returns it then depends on the allocations
alone. -/
def LoadsTo (context : FdContext) (bytes : List UInt8) (world : World) : Prop :=
  ∃ sections count header, loadSections context bytes = .ok (sections, count) ∧
    decodeHeader context sections count = .ok header ∧ decodeBody header sections = .ok world

theorem fdWorldLoad_loadsTo {context : FdContext} {bytes : List UInt8} {world : World}
    {s : Ledger} (h : (fdWorldLoad context bytes s).1 = .ok world) :
    LoadsTo context bytes world := by
  cases hsections : loadSections context bytes with
  | error failure =>
      simp only [fdWorldLoad, hsections] at h
      cases h
  | ok table =>
      obtain ⟨sections, count⟩ := table
      simp only [fdWorldLoad, hsections, fdDecodeWorld] at h
      cases hheader : decodeHeader context sections count with
      | error failure =>
          simp only [hheader] at h
          cases h
      | ok header =>
          refine ⟨sections, count, header, hsections, hheader, ?_⟩
          cases hbody : decodeBody header sections with
          | error code =>
              simp only [hheader, hbody, run_bind, run_pure, run_ite] at h
              split at h
              · cases h
              · split at h <;> cases h
          | ok loaded =>
              simp only [hheader, hbody, run_bind, run_pure, run_ite] at h
              split at h
              · cases h
              · split at h
                · cases h
                · rw [Except.ok.inj h]

theorem DecodedHeader.tileBytes_ne_zero {context : FdContext} {sections : Sections} {count : Nat}
    {header : SaveHeader} (h : DecodedHeader context sections count header) :
    UInt64.ofNat header.tileBytes ≠ 0 := by
  have hw : 32 ≤ header.config.width.toNat := UInt32.le_iff_toNat_le.mp h.inputs.width.1
  have hh : 16 ≤ header.config.height.toNat := UInt32.le_iff_toNat_le.mp h.inputs.height.1
  have htiles := h.inputs.tiles
  have hpos : 32 * 16 ≤ header.config.width.toNat * header.config.height.toNat :=
    Nat.mul_le_mul hw hh
  intro hzero
  have hnat := congrArg UInt64.toNat hzero
  rw [h.tileBytes, UInt64.toNat_ofNat', sizeofFdTile] at hnat
  simp only [fdMaxTiles, UInt64.reduceToNat] at htiles hnat
  omega

theorem fdWorldLoad_of_loadsTo {context : FdContext} (hcontext : context.NeverFails)
    {bytes : List UInt8} {world : World} (h : LoadsTo context bytes world) (s : Ledger) :
    (fdWorldLoad context bytes s).1 = .ok world := by
  obtain ⟨sections, count, header, hsections, hheader, hbody⟩ := h
  have hsize := (decodeHeader_eq_ok_iff.mp hheader).tileBytes_ne_zero
  have hworld : worldBytes ≠ 0 := by decide
  simp only [fdWorldLoad, hsections, fdDecodeWorld, hheader, hbody, run_bind, run_pure, run_ite,
    fdContextAlloc_neverFails hcontext hworld, fdContextAlloc_neverFails hcontext hsize,
    Bool.not_true, Bool.false_eq_true, if_false]

end FrontierDirectorate
