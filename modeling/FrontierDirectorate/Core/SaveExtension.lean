import Mathlib
import FrontierDirectorate.Core.SectionFiles
import FrontierDirectorate.Core.SaveRoundTrip

/-!
# Compatible extensions of a save

What a later minor version may change in a written save, and what the loader then
reads: the sections that carry the world are the same.
-/
namespace FrontierDirectorate
open ByteCodec Checks

/-- A save file of the given frames, with its footer. -/
def saveFile (frames : List Frame) : List UInt8 :=
  let body := fdSaveMagic ++ frames.flatMap Frame.bytes
  body ++ (fdFooterDigest body).toList

/-- The mandatory sections with the given payloads. -/
def mandatoryFrames (payload : UInt16 → List UInt8) : List Frame :=
  knownTags.map fun tag => ⟨tag, fdSectionCritical, payload tag⟩

/-- `payload` with the bytes from `offset` on replaced. -/
def overwrite (offset : Nat) (bytes payload : List UInt8) : List UInt8 :=
  payload.take offset ++ (bytes ++ payload.drop (offset + bytes.length))

/-- What a later writer adds to a save and which versions it announces. -/
structure Extension where
  fileMinor : UInt16
  apiMinor : UInt32
  apiPatch : UInt32
  replayMinor : UInt32
  manifestSuffix : List UInt8
  versionSuffix : List UInt8
  added : List Frame
  unknown : ∀ f ∈ added, 11 < f.tag
  increasing : (added.map Frame.tag).Pairwise (· < ·)
  count : 11 + added.length ≤ 64

namespace Extension

variable (e : Extension)

/-- The manifest: file minor, required reader minor, section count, suffix. -/
def manifest (payload : List UInt8) : List UInt8 :=
  overwrite 2 (fdStoreU16Le e.fileMinor) (overwrite 6 (fdStoreU16Le 0)
    (overwrite 8 (fdStoreU32Le (UInt32.ofNat (11 + e.added.length))) payload)) ++ e.manifestSuffix

/-- The version tuple: API minor and patch, file minor, replay minor, suffix. -/
def versions (payload : List UInt8) : List UInt8 :=
  overwrite 4 (fdStoreU32Le e.apiMinor) (overwrite 8 (fdStoreU32Le e.apiPatch)
    (overwrite 24 (fdStoreU32Le e.fileMinor.toUInt32)
      (overwrite 32 (fdStoreU32Le e.replayMinor) payload))) ++ e.versionSuffix

def payload (original : UInt16 → List UInt8) (tag : UInt16) : List UInt8 :=
  if tag = 1 then e.manifest (original 1)
  else if tag = 2 then e.versions (original 2) else original tag

def frames (original : UInt16 → List UInt8) : List Frame :=
  mandatoryFrames (e.payload original) ++ e.added

/-- `file` is the save `bytes` with the extension applied to it. -/
def Extends (bytes file : List UInt8) : Prop :=
  ∃ original, bytes = saveFile (mandatoryFrames original) ∧ file = saveFile (e.frames original)

/-- No added section is marked critical, or in any other way. -/
def Optional : Prop := ∀ f ∈ e.added, f.flags = 0

end Extension

section files

variable {frames others : List Frame}

theorem saveFile_framed (frames : List Frame) : FramedFile fdSaveMagic
    (frames.flatMap Frame.bytes)
    (fdFooterDigest (fdSaveMagic ++ frames.flatMap Frame.bytes)).toList (saveFile frames) :=
  framedFile rfl (List.Vector.toList_length _)

theorem saveFile_sized (hsize : (saveFile frames).length ≤ uint64Max) :
    ∀ f ∈ frames, f.Sized := sized_of_bytes hsize (saveFile_framed frames).middle

/-- A save file is made of one run of frames only. -/
theorem saveFile_inj (hframes : (saveFile frames).length ≤ uint64Max)
    (hothers : (saveFile others).length ≤ uint64Max) (h : saveFile frames = saveFile others) :
    frames = others := by
  have hbytes : frames.flatMap Frame.bytes = others.flatMap Frame.bytes := by
    rw [← (saveFile_framed frames).middle, h, (saveFile_framed others).middle]
  exact Frame.flatMap_bytes_inj (saveFile_sized hframes) (saveFile_sized hothers) hbytes

theorem saveBytes_eq_saveFile (world : World) :
    saveBytes world = saveFile (mandatoryFrames fun tag => savePayload world tag.toNat) := by
  have hframes : tableFrames (saveTable world) =
      mandatoryFrames fun tag => savePayload world tag.toNat := rfl
  rw [saveBytes, saveBody_eq, hframes]
  rfl

/-- The file checks of the loader, on a file of the grammar. -/
theorem loadSections_saveFile {context : FdContext} (hfile : SectionFile 11 frames)
    (hsize : (saveFile frames).length ≤ context.maxFileBytes.toNat) :
    loadSections context (saveFile frames) = .ok (tableOf 11 frames, frames.length) := by
  have hparts := saveFile_framed frames
  have hlt := context.maxFileBytes.toNat_lt
  have hmax : (saveFile frames).length ≤ uint64Max := by
    unfold uint64Max
    omega
  have hmin : 88 ≤ (saveFile frames).length := by
    obtain ⟨f, hf, -⟩ := hfile.mandatory 1 (by decide) (by decide)
    obtain ⟨before, behind, rfl⟩ := List.append_of_mem hf
    rw [hparts.size, List.flatMap_append, List.flatMap_cons, List.length_append,
      List.length_append, f.bytes_length]
    omega
  have hparse := fdParseSaveSections_eq_ok.mpr
    ⟨frames, saveFile_sized hmax, hfile, hparts.middle, rfl⟩
  rw [loadSections, failIf_bind_of_not (by omega), failIf_bind_of_not (by omega),
    failIf_bind_of_not (by rw [hparts.front]; exact fun hne => hne.1 rfl),
    failIf_bind_of_not (by rw [hparts.front, not_not]),
    failIf_bind_of_not (by rw [hparts.body, hparts.back, not_not]), hparse]

/-- A file that is not of the grammar is rejected by these checks. -/
theorem loadSections_error {context : FdContext} (hfile : ¬ SectionFile 11 frames) :
    ∃ failure, loadSections context (saveFile frames) = .error failure := by
  cases hload : loadSections context (saveFile frames) with
  | error failure => exact ⟨failure, rfl⟩
  | ok table =>
      obtain ⟨hsize, -, -, -, hparse⟩ := loadSections_eq_ok hload
      have hlt := context.maxFileBytes.toNat_lt
      have hmax : (saveFile frames).length ≤ uint64Max := by
        unfold uint64Max
        omega
      obtain ⟨accepted, hsized, haccepted, hmiddle, -⟩ := fdParseSaveSections_eq_ok.mp hparse
      rw [(saveFile_framed frames).middle] at hmiddle
      obtain rfl := Frame.flatMap_bytes_inj (saveFile_sized hmax) hsized hmiddle
      exact absurd haccepted hfile

end files

section extended

variable {e : Extension} {original : UInt16 → List UInt8}

theorem mem_knownTags {tag : UInt16} (hpos : 0 < tag) (hle : tag ≤ 11) : tag ∈ knownTags := by
  have hpos := UInt16.lt_iff_toNat_lt.mp hpos
  have hle := UInt16.le_iff_toNat_le.mp hle
  change 0 < tag.toNat at hpos
  change tag.toNat ≤ 11 at hle
  obtain ⟨n, hn⟩ : ∃ n, n = tag.toNat := ⟨_, rfl⟩
  obtain rfl : UInt16.ofNat n = tag := by rw [hn, UInt16.ofNat_toNat]
  rw [← hn] at hpos hle
  interval_cases n <;> decide

theorem mandatoryFrames_tags (payload : UInt16 → List UInt8) :
    (mandatoryFrames payload).map Frame.tag = knownTags := rfl

theorem mandatoryFrames_mem {payload : UInt16 → List UInt8} {f : Frame}
    (hf : f ∈ mandatoryFrames payload) :
    f.tag ∈ knownTags ∧ f.flags = fdSectionCritical ∧ f.payload = payload f.tag := by
  obtain ⟨tag, htag, rfl⟩ := List.mem_map.mp hf
  exact ⟨htag, rfl, rfl⟩

theorem mandatoryFrames_inj {payload payload' : UInt16 → List UInt8}
    (h : mandatoryFrames payload = mandatoryFrames payload') :
    ∀ tag ∈ knownTags, payload tag = payload' tag := by
  intro tag htag
  exact congrArg Frame.payload (List.map_inj_left.mp h tag htag)

/-- An extension with optional sections only stays in the grammar. -/
theorem Extension.frames_sectionFile (hoptional : e.Optional) :
    SectionFile 11 (e.frames original) where
  count := by
    have hlength : (mandatoryFrames (e.payload original)).length = 11 := rfl
    rw [frames, List.length_append, hlength]
    exact e.count
  increasing := by
    rw [frames, List.map_append, mandatoryFrames_tags, ← List.cons_append, List.pairwise_append]
    refine ⟨by decide, e.increasing, ?_⟩
    intro tag htag last hlast
    obtain ⟨f, hf, rfl⟩ := List.mem_map.mp hlast
    have hle : tag ≤ 11 := by
      rcases List.mem_cons.mp htag with rfl | htag
      · decide
      · exact (knownTags_range tag htag).1
    exact UInt16.lt_of_le_of_lt hle (e.unknown f hf)
  flags := by
    intro f hf
    rcases List.mem_append.mp hf with hf | hf
    · exact .inr (mandatoryFrames_mem hf).2.1
    · exact .inl (hoptional f hf)
  mandatory := by
    intro tag hpos hle
    exact ⟨⟨tag, fdSectionCritical, e.payload original tag⟩,
      List.mem_append_left _ (List.mem_map.mpr ⟨tag, mem_knownTags hpos hle, rfl⟩), rfl⟩
  critical := by
    intro f hf
    rcases List.mem_append.mp hf with hf | hf
    · obtain ⟨htag, hflags, -⟩ := mandatoryFrames_mem hf
      exact ⟨fun _ => (knownTags_range f.tag htag).1, fun _ => hflags⟩
    · constructor
      · intro hcritical
        rw [hoptional f hf] at hcritical
        exact absurd hcritical (by decide)
      · intro hle
        exact absurd hle (UInt16.not_le.mpr (e.unknown f hf))

/-- A critical section among the added ones leaves the grammar. -/
theorem Extension.not_sectionFile {f : Frame} (hf : f ∈ e.added)
    (hcritical : f.flags &&& fdSectionCritical ≠ 0) : ¬ SectionFile 11 (e.frames original) := by
  intro hfile
  have hmem : f ∈ e.frames original := List.mem_append_right _ hf
  rcases hfile.flags f hmem with hflags | hflags
  · rw [hflags] at hcritical
    exact hcritical rfl
  · exact absurd ((hfile.critical f hmem).mp hflags) (UInt16.not_le.mpr (e.unknown f hf))

/-- The table of an extended save. -/
theorem Extension.table (hoptional : e.Optional) {tag : UInt16} (htag : tag ∈ knownTags) :
    tableOf 11 (e.frames original) tag.toNat =
      ⟨e.payload original tag, fdSectionCritical, true⟩ := by
  have hmem : (⟨tag, fdSectionCritical, e.payload original tag⟩ : Frame) ∈ e.frames original :=
    List.mem_append_left _ (List.mem_map.mpr ⟨tag, htag, rfl⟩)
  exact (e.frames_sectionFile hoptional).loopFrames.entry hmem (knownTags_range tag htag).1

/-- The extended manifest, word for word. -/
theorem Extension.manifest_eq : e.manifest manifestPayload =
    fdStoreU16Le fdSaveVersionMajor ++ (fdStoreU16Le e.fileMinor ++
      (fdStoreU16Le fdSaveVersionMajor ++ (fdStoreU16Le 0 ++
        (fdStoreU32Le (UInt32.ofNat (11 + e.added.length)) ++
          (fdStoreU32Le 0 ++ e.manifestSuffix))))) := rfl

/-- The extended version tuple, word for word. -/
theorem Extension.versions_eq (world : World) : e.versions (versionPayload world) =
    fdStoreU32Le fdApiVersionMajor.toUInt32 ++ (fdStoreU32Le e.apiMinor ++
      (fdStoreU32Le e.apiPatch ++ (fdStoreU32Le world.config.generatorVersion ++
        (fdStoreU32Le world.config.rulesetVersion ++ (fdStoreU32Le fdSaveVersionMajor.toUInt32 ++
          (fdStoreU32Le e.fileMinor.toUInt32 ++ (fdStoreU32Le fdReplayVersionMajor.toUInt32 ++
            (fdStoreU32Le e.replayMinor ++
              (fdStoreU32Le fdRngRegistryVersion ++ e.versionSuffix))))))))) := rfl

end extended

/-- The two sections of a file that say who can read it, as the decoder checks them. -/
structure Readable (sections : Sections) (count : Nat) : Prop where
  manifestLength : 16 ≤ (sections 1).payload.length
  manifest : fdLoadU16Le (sections 1).payload = fdSaveVersionMajor ∧
    fdLoadU16Le ((sections 1).payload.drop 4) = fdSaveVersionMajor ∧
    fdLoadU16Le ((sections 1).payload.drop 6) ≤ fdSaveVersionMinor ∧
    fdLoadU32Le ((sections 1).payload.drop 8) = UInt32.ofNat count ∧
    fdLoadU32Le ((sections 1).payload.drop 12) = 0
  versions : 40 ≤ (sections 2).payload.length ∧
    fdLoadU32Le (sections 2).payload = fdApiVersionMajor.toUInt32 ∧
    fdLoadU32Le ((sections 2).payload.drop 12) = fdGeneratorVersion ∧
    fdLoadU32Le ((sections 2).payload.drop 16) = fdRulesetVersion ∧
    fdLoadU32Le ((sections 2).payload.drop 20) = fdSaveVersionMajor.toUInt32 ∧
    fdLoadU32Le ((sections 2).payload.drop 24) =
      (fdLoadU16Le ((sections 1).payload.drop 2)).toUInt32 ∧
    fdLoadU32Le ((sections 2).payload.drop 28) = fdReplayVersionMajor.toUInt32 ∧
    fdLoadU32Le ((sections 2).payload.drop 36) = fdRngRegistryVersion

section decode

variable {context : FdContext} {sections sections' : Sections} {count count' : Nat}

theorem DecodedHeader.readable {header : SaveHeader}
    (h : DecodedHeader context sections count header) : Readable sections count :=
  ⟨h.manifest.1, h.manifest.2, h.versions⟩

/-- Past the manifest and the version tuple the decoder reads the other sections only. -/
theorem decodeHeader_congr (h : Readable sections count) (h' : Readable sections' count')
    (hrest : ∀ tag, 3 ≤ tag → tag ≤ 11 → sections tag = sections' tag) :
    decodeHeader context sections count = decodeHeader context sections' count' := by
  have hmanifest : ∀ {table : Sections} {n : Nat}, Readable table n →
      ¬ (fdLoadU16Le (table 1).payload ≠ fdSaveVersionMajor ∨
        fdLoadU16Le ((table 1).payload.drop 4) ≠ fdSaveVersionMajor ∨
        fdSaveVersionMinor < fdLoadU16Le ((table 1).payload.drop 6) ∨
        fdLoadU32Le ((table 1).payload.drop 8) ≠ UInt32.ofNat n ∨
        fdLoadU32Le ((table 1).payload.drop 12) ≠ 0) := by
    intro table n htable
    simpa only [not_or, ne_eq, not_not, UInt16.not_lt] using htable.manifest
  have hversions : ∀ {table : Sections} {n : Nat}, Readable table n →
      ¬ ((table 2).payload.length < 40 ∨
        fdLoadU32Le (table 2).payload ≠ fdApiVersionMajor.toUInt32 ∨
        fdLoadU32Le ((table 2).payload.drop 12) ≠ fdGeneratorVersion ∨
        fdLoadU32Le ((table 2).payload.drop 16) ≠ fdRulesetVersion ∨
        fdLoadU32Le ((table 2).payload.drop 20) ≠ fdSaveVersionMajor.toUInt32 ∨
        fdLoadU32Le ((table 2).payload.drop 24) ≠
          (fdLoadU16Le ((table 1).payload.drop 2)).toUInt32 ∨
        fdLoadU32Le ((table 2).payload.drop 28) ≠ fdReplayVersionMajor.toUInt32 ∨
        fdLoadU32Le ((table 2).payload.drop 36) ≠ fdRngRegistryVersion) := by
    intro table n htable
    simpa only [not_or, not_lt, ne_eq, not_not] using htable.versions
  simp only [decodeHeader]
  rw [failIf_bind_of_not (not_lt.mpr h.manifestLength), failIf_bind_of_not (hmanifest h),
    failIf_bind_of_not (hversions h), failIf_bind_of_not (not_lt.mpr h'.manifestLength),
    failIf_bind_of_not (hmanifest h'), failIf_bind_of_not (hversions h'),
    hrest 3 (by decide) (by decide), hrest 4 (by decide) (by decide),
    hrest 5 (by decide) (by decide), hrest 6 (by decide) (by decide)]

theorem decodeBody_congr (header : SaveHeader)
    (hrest : ∀ tag, 3 ≤ tag → tag ≤ 11 → sections tag = sections' tag) :
    decodeBody header sections = decodeBody header sections' := by
  have hloaded : loadedWorld header sections = loadedWorld header sections' := by
    funext entities
    simp only [loadedWorld, hrest 3 (by decide) (by decide), hrest 5 (by decide) (by decide),
      hrest 6 (by decide) (by decide), hrest 7 (by decide) (by decide)]
  simp only [decodeBody, hloaded, hrest 6 (by decide) (by decide),
    hrest 7 (by decide) (by decide), hrest 8 (by decide) (by decide),
    hrest 9 (by decide) (by decide), hrest 10 (by decide) (by decide),
    hrest 11 (by decide) (by decide)]

/-- Two readable files with the same sections from the third on are loaded alike. -/
theorem fdWorldLoad_congr {bytes file : List UInt8}
    (hbytes : loadSections context bytes = .ok (sections, count))
    (hfile : loadSections context file = .ok (sections', count'))
    (h : Readable sections count) (h' : Readable sections' count')
    (hrest : ∀ tag, 3 ≤ tag → tag ≤ 11 → sections tag = sections' tag) :
    fdWorldLoad context file = fdWorldLoad context bytes := by
  have hheader : decodeHeader context sections' count' = decodeHeader context sections count :=
    (decodeHeader_congr h h' hrest).symm
  have hbody : ∀ header, decodeBody header sections' = decodeBody header sections :=
    fun header => (decodeBody_congr header hrest).symm
  simp only [fdWorldLoad, hbytes, hfile, fdDecodeWorld, hheader, hbody]

end decode

section extended

variable {context reader : FdContext} {world : World} {e : Extension} {file : List UInt8}

/-- The two version sections of an extended save are readable. -/
theorem Extension.readable (h : world.Sound context) (hoptional : e.Optional) :
    Readable (tableOf 11 (e.frames fun tag => savePayload world tag.toNat))
      (11 + e.added.length) := by
  have hfirst : (tableOf 11 (e.frames fun tag => savePayload world tag.toNat) 1).payload =
      e.manifest manifestPayload :=
    congrArg Section.payload (Extension.table hoptional (show (1 : UInt16) ∈ knownTags by decide))
  have hsecond : (tableOf 11 (e.frames fun tag => savePayload world tag.toNat) 2).payload =
      e.versions (versionPayload world) :=
    congrArg Section.payload (Extension.table hoptional (show (2 : UInt16) ∈ knownTags by decide))
  constructor
  · rw [hfirst, Extension.manifest_eq]
    simp only [List.length_append, fdStoreU16Le_length, fdStoreU32Le_length]
    omega
  · rw [hfirst, Extension.manifest_eq]
    simp
  · obtain ⟨hgenerator, hruleset⟩ := h.inputs.versions
    have hgenerator : world.config.generatorVersion = fdGeneratorVersion := hgenerator
    have hruleset : world.config.rulesetVersion = fdRulesetVersion := hruleset
    rw [hfirst, hsecond, Extension.manifest_eq, Extension.versions_eq, hgenerator, hruleset]
    simp
    omega

/-- Only the payloads of the known sections matter to an extension. -/
theorem Extension.frames_congr {original original' : UInt16 → List UInt8}
    (h : ∀ tag ∈ knownTags, original tag = original' tag) :
    e.frames original = e.frames original' := by
  have hpayload : ∀ tag ∈ knownTags, e.payload original tag = e.payload original' tag := by
    intro tag htag
    rw [Extension.payload, Extension.payload, h tag htag, h 1 (by decide), h 2 (by decide)]
  rw [Extension.frames, Extension.frames, mandatoryFrames, mandatoryFrames,
    List.map_congr_left fun tag htag => by rw [hpayload tag htag]]

/-- An extension of a save, in terms of the world that was saved. -/
theorem Extension.Extends.file_eq (hsize : (saveBytes world).length ≤ uint64Max)
    (h : e.Extends (saveBytes world) file) :
    file = saveFile (e.frames fun tag => savePayload world tag.toNat) := by
  obtain ⟨original, hbytes, rfl⟩ := h
  rw [saveBytes_eq_saveFile] at hsize hbytes
  have hframes := saveFile_inj hsize (hbytes ▸ hsize) hbytes
  rw [Extension.frames_congr (mandatoryFrames_inj hframes)]

/-- What an extension adds to the size of a save. -/
theorem Extension.length_eq (e : Extension) (world : World) :
    (saveFile (e.frames fun tag => savePayload world tag.toNat)).length =
      (saveBytes world).length + e.manifestSuffix.length + e.versionSuffix.length +
        (e.added.flatMap Frame.bytes).length := by
  have hmanifest : (e.payload (fun tag => savePayload world tag.toNat) 1).length =
      (savePayload world 1).length + e.manifestSuffix.length := by
    change (e.manifest manifestPayload).length = manifestPayload.length + _
    rw [Extension.manifest_eq, manifestPayload_length]
    simp only [List.length_append, fdStoreU16Le_length, fdStoreU32Le_length]
    omega
  have hversions : (e.payload (fun tag => savePayload world tag.toNat) 2).length =
      (savePayload world 2).length + e.versionSuffix.length := by
    change (e.versions (versionPayload world)).length = (versionPayload world).length + _
    rw [Extension.versions_eq, versionPayload_length]
    simp only [List.length_append, fdStoreU32Le_length]
    omega
  have hothers : ∀ tag ∈ ([3, 4, 5, 6, 7, 8, 9, 10, 11] : List UInt16),
      e.payload (fun tag => savePayload world tag.toNat) tag = savePayload world tag.toNat := by
    intro tag htag
    have hone : tag ≠ 1 := by
      rintro rfl
      exact absurd htag (by decide)
    have htwo : tag ≠ 2 := by
      rintro rfl
      exact absurd htag (by decide)
    rw [Extension.payload, if_neg hone, if_neg htwo]
  have htail : ∀ payload : UInt16 → List UInt8, ((mandatoryFrames payload).flatMap
      Frame.bytes).length = 96 + (payload 1).length + (payload 2).length +
        (([3, 4, 5, 6, 7, 8, 9, 10, 11].map fun tag =>
          (⟨tag, fdSectionCritical, payload tag⟩ : Frame)).flatMap Frame.bytes).length := by
    intro payload
    simp only [mandatoryFrames, knownTags, List.map_cons, List.flatMap_cons, List.length_append,
      Frame.bytes_length]
    omega
  rw [saveBytes_eq_saveFile, (saveFile_framed _).size, (saveFile_framed _).size, Extension.frames,
    List.flatMap_append, List.length_append, htail, htail, hmanifest, hversions,
    List.map_congr_left fun tag htag => by rw [hothers tag htag]]
  change _ = 40 + (96 + (savePayload world 1).length + (savePayload world 2).length + _) + _ + _ + _
  omega

theorem Extension.Extends.saveSize_le (h : world.Bounded) (hfile : e.Extends (saveBytes world) file) :
    saveSize world ≤ file.length := by
  have hmax : (saveBytes world).length ≤ uint64Max := by
    rw [saveBytes_length]
    exact (FrontierDirectorate.saveSize_le h).trans (by decide)
  rw [hfile.file_eq hmax, e.length_eq, saveBytes_length]
  omega

/-- A compatible extension is loaded as the save is, whatever the allocator does. -/
theorem Extension.load_eq (h : world.Sound context) (hoptional : e.Optional)
    (hfile : e.Extends (saveBytes world) file)
    (hsize : file.length ≤ reader.maxFileBytes.toNat) :
    fdWorldLoad reader file = fdWorldLoad reader (saveBytes world) := by
  have hsave := saveSize_le h.bounded
  have hmax : (saveBytes world).length ≤ uint64Max := by
    rw [saveBytes_length]
    exact hsave.trans (by decide)
  have hshorter : saveSize world ≤ reader.maxFileBytes.toNat :=
    (hfile.saveSize_le h.bounded).trans hsize
  obtain rfl := hfile.file_eq hmax
  have hload := loadSections_saveFile (e.frames_sectionFile hoptional) hsize
  have hcount : (e.frames fun tag => savePayload world tag.toNat).length = 11 + e.added.length := by
    rw [Extension.frames, List.length_append]
    rfl
  rw [hcount] at hload
  refine fdWorldLoad_congr (loadSections_saveBytes h.bounded hshorter) hload
    (decodedHeader_save h).readable (e.readable h hoptional) ?_
  intro tag hfirst hlast
  have hnat : (UInt16.ofNat tag).toNat = tag := by
    rw [UInt16.toNat_ofNat']
    omega
  have hknown : UInt16.ofNat tag ∈ knownTags := by
    apply mem_knownTags
    · rw [UInt16.lt_iff_toNat_lt, hnat]
      change 0 < tag
      omega
    · rw [UInt16.le_iff_toNat_le, hnat]
      exact hlast
  have hone : UInt16.ofNat tag ≠ 1 := by
    intro heq
    rw [heq] at hnat
    change 1 = tag at hnat
    omega
  have htwo : UInt16.ofNat tag ≠ 2 := by
    intro heq
    rw [heq] at hnat
    change 2 = tag at hnat
    omega
  have hentry : tableOf 11 (e.frames fun tag => savePayload world tag.toNat)
      (UInt16.ofNat tag).toNat = _ := Extension.table hoptional hknown
  rw [hnat, Extension.payload, if_neg hone, if_neg htwo, hnat] at hentry
  rw [hentry, saveTable, if_pos ⟨by omega, hlast⟩]

/-- A critical section that the reader does not know stops the load before any allocation. -/
theorem Extension.load_error {bytes : List UInt8} (hfile : e.Extends bytes file) {f : Frame}
    (hf : f ∈ e.added) (hcritical : f.flags &&& fdSectionCritical ≠ 0) (s : Ledger) :
    ∃ failure, fdWorldLoad reader file s = (.error failure, s) := by
  obtain ⟨original, -, rfl⟩ := hfile
  obtain ⟨failure, hload⟩ : ∃ failure, loadSections reader (saveFile (e.frames original)) =
      .error failure := loadSections_error (e.not_sectionFile hf hcritical)
  refine ⟨failure, ?_⟩
  rw [fdWorldLoad, hload]
  rfl

end extended

end FrontierDirectorate
