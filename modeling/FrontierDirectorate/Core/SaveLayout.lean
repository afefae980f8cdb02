import Mathlib
import FrontierDirectorate.Core.Invariants
import FrontierDirectorate.Core.SaveFrames

/-!
# The layout of a written save

The announced lengths are the payload lengths, the file is the table of its
payloads written out, and the section parser reads that table back.
-/
namespace FrontierDirectorate
open ByteCodec Checks

/-- The sizes the length arithmetic of the writer is made for. -/
structure World.Bounded (world : World) : Prop where
  tiles : world.tileCount ≤ fdMaxTiles
  names : ∀ entity ∈ world.entities.toList, entity.name.length < fdMaxNameBytes

theorem World.Invariants.bounded {world : World} (h : world.Invariants) : world.Bounded := by
  refine ⟨h.bounds.2.2.2.2.2, ?_⟩
  intro entity hentity
  obtain ⟨i, rfl⟩ := List.Vector.mem_iff_get entity world.entities |>.mp hentity
  have hgraph := h.ownership
  simp only [World.ownershipHolds, fdValidateOwnershipGraph, Bool.and_eq_true, List.all_eq_true,
    decide_eq_true_eq] at hgraph
  exact (hgraph.2.1.1.1.1.1.1.1 i (List.mem_finRange i)).2

/-- The payload of a section of the save. -/
def savePayload (world : World) : Nat → List UInt8
  | 1 => manifestPayload
  | 2 => versionPayload world
  | 3 => configPayload world
  | 4 => contentPayload world
  | 5 => seedPayload world
  | 6 => timePayload world
  | 7 => mapPayload world
  | 8 => entityPayload world
  | 9 => counterPayload
  | 10 => pendingPayload
  | 11 => world.stateSha256.toList
  | _ => []

/-- The section table of a save. -/
def saveTable (world : World) : Sections := fun tag =>
  if 1 ≤ tag ∧ tag ≤ 11 then ⟨savePayload world tag, fdSectionCritical, true⟩ else .absent

section lengths

variable (world : World)

@[simp] theorem manifestPayload_length : manifestPayload.length = 16 := rfl

@[simp] theorem versionPayload_length : (versionPayload world).length = 40 := rfl

@[simp] theorem configPayload_length : (configPayload world).length = 68 := by
  simp [configPayload]

@[simp] theorem contentPayload_length : (contentPayload world).length = contentLength world := by
  simp [contentPayload, contentLength, packCodec]

@[simp] theorem seedPayload_length : (seedPayload world).length = 24 := by simp [seedPayload]

@[simp] theorem timePayload_length : (timePayload world).length = 56 := rfl

@[simp] theorem tileCountsPayload_length : (tileCountsPayload world).length = 24 := rfl

@[simp] theorem encodeRegion_length (region : Region) : (encodeRegion region).length = 80 :=
  regionCodec.encode_length region

@[simp] theorem mapPayload_length : (mapPayload world).length = mapLength world := by
  simp only [mapPayload, mapLength, List.length_append, tileCountsPayload_length,
    Codec.encodeAll_length, encodeRegion_length, tileCodec, World.tileCount]
  omega

theorem flatMap_encodeEntity_length (entities : List Entity) (n : Nat) :
    n + (entities.flatMap encodeEntity).length =
      entities.foldl (fun length entity => length + (40 + entity.name.length)) n := by
  induction entities generalizing n with
  | nil => rfl
  | cons entity entities ih =>
      rw [List.flatMap_cons, List.length_append, encodeEntity_length, List.foldl_cons, ← ih]
      omega

@[simp] theorem entityPayload_length :
    (entityPayload world).length = fdEntitySectionLength world := by
  rw [fdEntitySectionLength, ← flatMap_encodeEntity_length]
  simp only [entityPayload, List.length_append, fdStoreU32Le_length]
  omega

@[simp] theorem counterPayload_length : counterPayload.length = 4 := rfl

@[simp] theorem pendingPayload_length : pendingPayload.length = 16 := rfl

@[simp] theorem stateSha256_length : world.stateSha256.toList.length = 32 :=
  world.stateSha256.toList_length

theorem foldl_name_lengths_le {entities : List Entity} {bound n : Nat}
    (h : ∀ entity ∈ entities, entity.name.length < bound) :
    entities.foldl (fun length entity => length + (40 + entity.name.length)) n ≤
      n + entities.length * (40 + bound) := by
  induction entities generalizing n with
  | nil => simp
  | cons entity entities ih =>
      have hhead := h entity List.mem_cons_self
      have htail := ih (n := n + (40 + entity.name.length))
        fun e he => h e (List.mem_cons_of_mem entity he)
      rw [List.foldl_cons, List.length_cons, Nat.succ_mul]
      omega

theorem fdEntitySectionLength_le (h : world.Bounded) : fdEntitySectionLength world ≤ 536 := by
  have hle := foldl_name_lengths_le (n := 8) h.names
  rw [world.entities.toList_length] at hle
  exact hle

theorem savePayload_length_le (h : world.Bounded) (tag : Nat) :
    (savePayload world tag).length ≤ 1000000 := by
  have hcontent := world.content.count_le
  have htiles := h.tiles
  have hentities := fdEntitySectionLength_le world h
  unfold savePayload
  split
  all_goals
    simp only [manifestPayload_length, versionPayload_length, configPayload_length,
      contentPayload_length, seedPayload_length, timePayload_length, mapPayload_length,
      entityPayload_length, counterPayload_length, pendingPayload_length, stateSha256_length,
      contentLength, mapLength, List.length_nil]
    simp only [fdMaxContentPacks, fdMaxTiles] at hcontent htiles
    omega

end lengths

theorem writeSection_eq (tag : UInt16) (payload : List UInt8) {length : Nat}
    (h : payload.length = length) :
    writeSection tag length payload = Frame.bytes ⟨tag, fdSectionCritical, payload⟩ := by
  subst h
  simp only [writeSection, fdBeginSection, fdEndSection, Frame.bytes, List.take_length]

theorem saveBody_eq (world : World) :
    saveBody world = fdSaveMagic ++ (tableFrames (saveTable world)).flatMap Frame.bytes := by
  rw [saveBody, writeSection_eq 1 _ manifestPayload_length,
    writeSection_eq 2 _ (versionPayload_length world),
    writeSection_eq 3 _ (configPayload_length world),
    writeSection_eq 4 _ (contentPayload_length world),
    writeSection_eq 5 _ (seedPayload_length world), writeSection_eq 6 _ (timePayload_length world),
    writeSection_eq 7 _ (mapPayload_length world), writeSection_eq 8 _ (entityPayload_length world),
    writeSection_eq 9 _ counterPayload_length, writeSection_eq 10 _ pendingPayload_length,
    writeSection_eq 11 _ (stateSha256_length world)]
  simp [tableFrames, knownTags, saveTable, savePayload]

/-- The byte count of a written save. -/
def saveSize (world : World) : Nat :=
  824 + contentLength world + mapLength world + fdEntitySectionLength world

theorem fdSaveMagic_length : fdSaveMagic.length = 8 := rfl

theorem saveBytes_length (world : World) : (saveBytes world).length = saveSize world := by
  simp only [saveBytes, saveBody, writeSection, fdBeginSection, fdEndSection, saveSize,
    List.length_append, sectionHeader_length, List.Vector.toList_length, fdSaveMagic_length,
    manifestPayload_length, versionPayload_length, configPayload_length, contentPayload_length,
    seedPayload_length, timePayload_length, mapPayload_length, entityPayload_length,
    counterPayload_length, pendingPayload_length]
  omega

theorem saveSize_le {world : World} (h : world.Bounded) : saveSize world ≤ 1000000 := by
  have hcontent := world.content.count_le
  have htiles := h.tiles
  have hentities := fdEntitySectionLength_le world h
  simp only [saveSize, contentLength, mapLength]
  simp only [fdMaxContentPacks, fdMaxTiles] at hcontent htiles
  omega

theorem fdU64Add_eq {a b : Nat} (h : a + b ≤ uint64Max) : fdU64Add a b = some (a + b) := by
  rw [fdU64Add, if_neg (by omega)]

theorem fdSaveSizeInternal_eq {world : World} (h : world.Bounded) :
    fdSaveSizeInternal world = .ok (saveSize world) := by
  have hsize := saveSize_le h
  unfold saveSize at hsize
  simp only [fdSaveSizeInternal, fdSaveSectionCount]
  rw [fdU64Add_eq (by unfold uint64Max; omega)]
  simp only [Option.bind_eq_bind, Option.bind_some]
  rw [fdU64Add_eq (by unfold uint64Max; omega)]
  simp only [Option.bind_some]
  rw [fdU64Add_eq (by unfold uint64Max; omega)]
  simp only [saveSize, Except.ok.injEq]
  omega

theorem fdWorldSaveSize_eq {context : FdContext} {world : World} (h : world.Bounded)
    (hsize : saveSize world ≤ context.maxFileBytes.toNat) :
    fdWorldSaveSize context world = .ok (saveSize world) := by
  rw [fdWorldSaveSize, fdSaveSizeInternal_eq h]
  exact if_neg (by omega)

/-- A bounded world within the file limit is written whole. -/
theorem fdWorldSave_eq {context : FdContext} {world : World} {capacity : Nat} (h : world.Bounded)
    (hsize : saveSize world ≤ context.maxFileBytes.toNat) (hcap : saveSize world ≤ capacity) :
    fdWorldSave context world capacity = .ok (saveBytes world) := by
  rw [fdWorldSave, fdWorldSaveSize_eq h hsize, ok_bind, failIf_bind_of_not (by omega),
    failIf_bind_of_not (by rw [saveBytes_length, not_not])]

section parse

theorem flags_critical : fdSectionCritical &&& ~~~ fdSectionCritical = 0 := by decide

/-- The frames of any table of representable payloads are accepted. -/
theorem tableFrames_accepted {sections : Sections}
    (h : ∀ tag, (sections tag).payload.length ≤ uint64Max - 48) :
    Accepted saveAccept saveNext SectionScan.start (tableFrames sections) := by
  simp only [tableFrames, knownTags, List.map_cons, List.map_nil, Accepted, Frame.Sized, saveAccept,
    saveNext, h, flags_critical, true_and, and_true]
  decide

theorem saveTable_sized {world : World} (h : world.Bounded) (tag : Nat) :
    (saveTable world tag).payload.length ≤ uint64Max - 48 := by
  have hle := savePayload_length_le world h tag
  unfold saveTable uint64Max
  split
  · simp only
    omega
  · simp [Section.absent]

theorem tableFrames_sorted (sections : Sections) :
    ((tableFrames sections).map Frame.tag).Pairwise (· < ·) := by
  have htags : (tableFrames sections).map Frame.tag = knownTags := rfl
  rw [htags]
  decide

theorem tableFrames_table (sections : Sections)
    (hknown : ∀ tag, 1 ≤ tag ∧ tag ≤ 11 →
      sections tag = ⟨(sections tag).payload, fdSectionCritical, true⟩)
    (habsent : ∀ tag, ¬ (1 ≤ tag ∧ tag ≤ 11) → sections tag = .absent) :
    ((tableFrames sections).foldl saveNext SectionScan.start).sections = sections := by
  funext tag
  by_cases h : 1 ≤ tag ∧ tag ≤ 11
  · have hmem : UInt16.ofNat tag ∈ knownTags := by
      obtain ⟨h1, h11⟩ := h
      interval_cases tag <;> decide
    have hle := (knownTags_range _ hmem).1
    have htag : (UInt16.ofNat tag).toNat = tag := by
      rw [UInt16.toNat_ofNat']
      omega
    have hframe : (⟨UInt16.ofNat tag, fdSectionCritical, (sections tag).payload⟩ : Frame) ∈
        tableFrames sections :=
      List.mem_map.mpr ⟨_, hmem, by rw [htag]⟩
    have hentry : ((tableFrames sections).foldl saveNext SectionScan.start).sections _ = _ :=
      foldl_tableNext_of_mem (tableFrames_sorted sections) hframe hle
    simp only [htag] at hentry
    rw [hentry, ← hknown tag h]
  · rw [saveNext_eq, foldl_tableNext_of_ne, habsent tag h]
    intro f hf htag
    obtain ⟨t, ht, rfl⟩ := List.mem_map.mp hf
    have hrange := (knownTags_range t ht).2
    rw [List.mem_range'_1] at hrange
    simp only at htag
    omega

/-- A written save in its parts. -/
theorem saveBytes_framed (world : World) : FramedFile fdSaveMagic
    ((tableFrames (saveTable world)).flatMap Frame.bytes)
    (fdFooterDigest (saveBody world)).toList (saveBytes world) := by
  rw [saveBytes, saveBody_eq]
  exact framedFile rfl (List.Vector.toList_length _)

/-- The section parser reads the table of a written save back. -/
theorem fdParseSaveSections_saveBytes {world : World} (h : world.Bounded) :
    fdParseSaveSections (saveBytes world) = .ok (saveTable world, 11) := by
  have htable : ((tableFrames (saveTable world)).foldl saveNext SectionScan.start).sections =
      saveTable world := by
    refine tableFrames_table _ ?_ ?_
    · intro tag htag
      simp only [saveTable, if_pos htag]
    · intro tag htag
      simp only [saveTable, if_neg htag]
  have haccepted := tableFrames_accepted (saveTable_sized h)
  simp only [fdParseSaveSections]
  rw [(saveBytes_framed world).middle, parseSaveLoop_frames haccepted, ok_bind, htable,
    recountSections_frames haccepted.sized]
  have hmandatory : forEach (List.range' 1 11) (fun () tag =>
      failIf (¬ (saveTable world tag).present ∨
          (saveTable world tag).flags &&& fdSectionCritical = 0)
        (fdDiagSet fdErrFormat fdFieldSection (UInt32.ofNat tag)
          "missing mandatory save section")) () = .ok () := by
    refine forEach_unit_eq_ok.mpr ?_
    intro tag htag
    rw [List.mem_range'_1] at htag
    refine failIf_false ?_
    simp only [saveTable, if_pos (show 1 ≤ tag ∧ tag ≤ 11 by omega)]
    decide
  rw [hmandatory]
  rfl

theorem loadSections_saveBytes {context : FdContext} {world : World} (h : world.Bounded)
    (hsize : saveSize world ≤ context.maxFileBytes.toNat) :
    loadSections context (saveBytes world) = .ok (saveTable world, 11) := by
  have hlen := saveBytes_length world
  have hfile := saveBytes_framed world
  have hmagic := hfile.front
  have hge : 88 ≤ saveSize world := by unfold saveSize; omega
  rw [loadSections, failIf_bind_of_not (by omega), failIf_bind_of_not (by omega),
    failIf_bind_of_not (by rw [hmagic]; exact fun hne => hne.1 rfl),
    failIf_bind_of_not (by rw [hmagic, not_not]),
    failIf_bind_of_not (by rw [hfile.body, hfile.back, ← saveBody_eq, not_not]),
    fdParseSaveSections_saveBytes h]

end parse

end FrontierDirectorate
