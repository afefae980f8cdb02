import Mathlib
import FrontierDirectorate.Core.SaveFrames
import FrontierDirectorate.Core.ReplayOpen

/-!
# Both parsers against the grammar

The save parser checks the known sections after its loop, the replay parser
inside it; what they accept is the same grammar with another last known tag.
-/
namespace FrontierDirectorate
open ByteCodec Checks

section grammar

variable {known : UInt16} {frames : List Frame}

/-- The table that a loop leaves behind. -/
def tableOf (known : UInt16) (frames : List Frame) : Sections :=
  (frames.foldl (tableNext known) SectionScan.start).sections

/-- The frames that the loop of a parser lets through, whatever its order of checks. -/
structure LoopFrames (frames : List Frame) : Prop where
  count : frames.length ≤ 64
  increasing : (0 :: frames.map Frame.tag).Pairwise (· < ·)
  flags : ∀ f ∈ frames, f.flags = 0 ∨ f.flags = fdSectionCritical

theorem SectionFile.loopFrames (h : SectionFile known frames) : LoopFrames frames :=
  ⟨h.count, h.increasing, h.flags⟩

theorem LoopFrames.sorted (h : LoopFrames frames) :
    (frames.map Frame.tag).Pairwise (· < ·) := (List.pairwise_cons.mp h.increasing).2

theorem LoopFrames.tag_pos (h : LoopFrames frames) {f : Frame} (hf : f ∈ frames) : 0 < f.tag :=
  (List.pairwise_cons.mp h.increasing).1 f.tag (List.mem_map.mpr ⟨f, hf, rfl⟩)

theorem LoopFrames.entry (h : LoopFrames frames) {f : Frame} (hf : f ∈ frames)
    (hknown : f.tag ≤ known) : tableOf known frames f.tag.toNat = ⟨f.payload, f.flags, true⟩ :=
  foldl_tableNext_of_mem h.sorted hf hknown

/-- A table entry is present exactly when a known frame carries its tag. -/
theorem LoopFrames.present_iff (h : LoopFrames frames) {tag : UInt16} (hknown : tag ≤ known) :
    (tableOf known frames tag.toNat).present = true ↔ ∃ f ∈ frames, f.tag = tag := by
  constructor
  · intro hpresent
    obtain ⟨f, hf, -, htag⟩ := exists_frame_of_present (s := SectionScan.start) rfl hpresent
    exact ⟨f, hf, UInt16.toNat_inj.mp htag⟩
  · rintro ⟨f, hf, rfl⟩
    rw [h.entry hf hknown]

/-- The payload lengths of frames inside a file fit the parsers' arithmetic. -/
theorem sized_of_bytes {bytes : List UInt8} (hsize : bytes.length ≤ uint64Max)
    (hframes : slice bytes 8 (bytes.length - 40) = frames.flatMap Frame.bytes) :
    ∀ f ∈ frames, f.Sized := by
  intro f hf
  obtain ⟨before, behind, rfl⟩ := List.append_of_mem hf
  have hlength := congrArg List.length hframes
  rw [slice_length, List.flatMap_append, List.flatMap_cons, List.length_append,
    List.length_append, f.bytes_length] at hlength
  unfold Frame.Sized
  omega

/-- The loop over the mandatory tags, as a statement about all 16-bit tags. -/
theorem mandatory_range (known : UInt16) {check : Nat → Prop} :
    (∀ tag ∈ List.range' 1 known.toNat, check tag) ↔
      ∀ tag : UInt16, 0 < tag → tag ≤ known → check tag.toNat := by
  have hzero : (0 : UInt16).toNat = 0 := rfl
  constructor
  · intro h tag hpos hle
    apply h
    rw [List.mem_range'_1]
    rw [UInt16.lt_iff_toNat_lt] at hpos
    rw [UInt16.le_iff_toNat_le] at hle
    omega
  · intro h tag htag
    rw [List.mem_range'_1] at htag
    have hlt := known.toNat_lt
    have htag' : (UInt16.ofNat tag).toNat = tag := by
      rw [UInt16.toNat_ofNat']
      omega
    have hcheck := h (UInt16.ofNat tag)
      (by rw [UInt16.lt_iff_toNat_lt, htag']; exact htag.1)
      (by rw [UInt16.le_iff_toNat_le, htag']; omega)
    rwa [htag'] at hcheck

end grammar

section save

variable {frames : List Frame}

/-- What the save parser accepts: the loop and then the mandatory sections. -/
theorem sectionFile_save_iff : SectionFile 11 frames ↔ LoopFrames frames ∧
    (∀ f ∈ frames, ¬ (11 < f.tag ∧ f.flags &&& fdSectionCritical ≠ 0)) ∧
    ∀ tag ∈ List.range' 1 11, ¬ (¬ (tableOf 11 frames tag).present ∨
      (tableOf 11 frames tag).flags &&& fdSectionCritical = 0) := by
  have hrange : (∀ tag ∈ List.range' 1 11, ¬ (¬ (tableOf 11 frames tag).present ∨
      (tableOf 11 frames tag).flags &&& fdSectionCritical = 0)) ↔ _ := mandatory_range 11
  rw [hrange]
  have hzero : (0 : UInt16) &&& fdSectionCritical = 0 := rfl
  have hone : fdSectionCritical &&& fdSectionCritical ≠ 0 := by decide
  constructor
  · intro h
    refine ⟨h.loopFrames, ?_, ?_⟩
    · rintro f hf ⟨hunknown, hcritical⟩
      rcases h.flags f hf with hflags | hflags
      · exact hcritical (hflags ▸ hzero)
      · exact absurd ((h.critical f hf).mp hflags) (UInt16.not_le.mpr hunknown)
    · intro tag hpos hle
      obtain ⟨f, hf, rfl⟩ := h.mandatory tag hpos hle
      rw [h.loopFrames.entry hf hle, (h.critical f hf).mpr hle]
      exact not_or.mpr ⟨not_not.mpr rfl, hone⟩
  · rintro ⟨hloop, hunknown, hmandatory⟩
    refine ⟨hloop.count, hloop.increasing, hloop.flags, ?_, ?_⟩
    · intro tag hpos hle
      have hpresent := (not_or.mp (hmandatory tag hpos hle)).1
      exact (hloop.present_iff hle).mp (not_not.mp hpresent)
    · intro f hf
      constructor
      · intro hcritical
        by_contra hle
        exact hunknown f hf ⟨UInt16.not_le.mp hle, hcritical ▸ hone⟩
      · intro hle
        have hflags := (not_or.mp (hmandatory f.tag (hloop.tag_pos hf) hle)).2
        rw [hloop.entry hf hle] at hflags
        exact (hloop.flags f hf).resolve_left fun h => hflags (h ▸ hzero)

/-- The save parser on the bytes of a file. -/
theorem fdParseSaveSections_eq_ok {bytes : List UInt8} {result : Sections × Nat} :
    fdParseSaveSections bytes = .ok result ↔ ∃ frames, (∀ f ∈ frames, f.Sized) ∧
      SectionFile 11 frames ∧ slice bytes 8 (bytes.length - 40) = frames.flatMap Frame.bytes ∧
      result = (tableOf 11 frames, frames.length) := by
  simp only [fdParseSaveSections, bind_eq_ok]
  constructor
  · rintro ⟨s, hloop, _, hmandatory, hresult⟩
    obtain ⟨frames, hframes, haccepted, rfl⟩ := sectionLoop_eq_ok parseSaveSection_parses hloop
    obtain ⟨hchain, hgood, hcount⟩ := saveAccepted_iff.mp haccepted
    rw [hframes, recountSections_frames haccepted.sized] at hresult
    cases hresult
    refine ⟨frames, haccepted.sized, sectionFile_save_iff.mpr ⟨⟨hcount, ?_, ?_⟩, ?_, ?_⟩,
      hframes, rfl⟩
    · exact List.isChain_iff_pairwise.mp hchain
    · exact fun f hf => known_flags_iff.mp (hgood f hf).2.1
    · exact fun f hf => (hgood f hf).2.2
    · intro tag htag
      exact failIf_eq_ok.mp (forEach_unit_eq_ok.mp hmandatory tag htag)
  · rintro ⟨frames, hsized, hfile, hframes, rfl⟩
    obtain ⟨hloop, hunknown, hmandatory⟩ := sectionFile_save_iff.mp hfile
    have haccepted : Accepted saveAccept saveNext SectionScan.start frames := by
      apply saveAccepted_iff.mpr
      refine ⟨List.isChain_iff_pairwise.mpr hloop.increasing, ?_, hloop.count⟩
      exact fun f hf => ⟨hsized f hf, known_flags_iff.mpr (hloop.flags f hf), hunknown f hf⟩
    refine ⟨frames.foldl saveNext SectionScan.start, ?_, (), ?_, ?_⟩
    · rw [hframes]
      exact parseSaveLoop_frames haccepted
    · exact forEach_unit_eq_ok.mpr fun tag htag => failIf_eq_ok.mpr (hmandatory tag htag)
    · rw [hframes, recountSections_frames hsized]
      rfl

end save

section replay

/-- When the replay parser takes a frame. -/
def replayGood (f : Frame) : Prop :=
  ¬ (f.tag ≤ 5 ∧ f.flags &&& fdSectionCritical = 0) ∧
    ¬ (¬ f.tag ≤ 5 ∧ f.flags &&& fdSectionCritical ≠ 0)

theorem parseReplaySection_parses : ParsesFrames parseReplaySection
    (fun s f => frameAccept s f ∧ replayGood f) (tableNext 5) := by
  intro s rest s' n
  simp only [parseReplaySection, failIf_bind_eq_ok]
  constructor
  · rintro ⟨hshort, hhead, hdigest, hmandatory, hunknown, hcount, hresult⟩
    simp only [not_or, not_lt, ne_eq, not_not] at hshort hhead hdigest hcount
    simp only [Except.ok.injEq, Prod.mk.injEq] at hresult
    obtain ⟨htag, hreserved, hflags, hfits, hlength⟩ := hhead
    have hsize := Frame.read_payload_length hlength
    have haccept : frameAccept s (Frame.read rest) ∧ replayGood (Frame.read rest) :=
      ⟨⟨UInt16.not_le.mp htag, hflags, hcount⟩, hmandatory, hunknown⟩
    refine ⟨Frame.read rest, _, ⟨?_, haccept⟩,
      Frame.eq_bytes_append hreserved hlength hdigest, ?_, ?_⟩
    · rw [Frame.Sized, hsize]
      exact hfits
    · rw [← hresult.1]
      rfl
    · rw [hsize, hresult.2]
  · rintro ⟨f, rest', ⟨hsized, ⟨htag, hflags, hcount⟩, hmandatory, hunknown⟩, rfl, rfl, rfl⟩
    have hlen : (f.bytes ++ rest').length = 48 + f.payload.length + rest'.length := by
      rw [List.length_append, f.bytes_length]
    have htag' : ¬ f.tag ≤ s.previousTag := UInt16.not_le.mpr htag
    simp only [f.read_tag, f.read_flags, f.read_reserved, Frame.read_size hsized, f.read_payload,
      f.read_digest, hlen]
    unfold Frame.Sized at hsized
    refine ⟨by omega, ?_, not_not.mpr rfl, hmandatory, hunknown, by omega, rfl⟩
    simp only [htag', hflags, ne_eq, not_true_eq_false, false_or, not_or, not_lt]
    omega

variable {frames : List Frame}

/-- What the replay parser accepts: a loop with its own rule, then the presence of all tags. -/
theorem sectionFile_replay_iff : SectionFile 5 frames ↔ LoopFrames frames ∧
    (∀ f ∈ frames, replayGood f) ∧
    ∀ tag ∈ List.range' 1 5, ¬ ¬ (tableOf 5 frames tag).present := by
  have hrange : (∀ tag ∈ List.range' 1 5, ¬ ¬ (tableOf 5 frames tag).present) ↔ _ :=
    mandatory_range 5
  rw [hrange]
  have hzero : (0 : UInt16) &&& fdSectionCritical = 0 := rfl
  have hone : fdSectionCritical &&& fdSectionCritical ≠ 0 := by decide
  constructor
  · intro h
    refine ⟨h.loopFrames, ?_, ?_⟩
    · intro f hf
      refine ⟨?_, ?_⟩
      · rintro ⟨hknown, hoptional⟩
        exact hone ((h.critical f hf).mpr hknown ▸ hoptional)
      · rintro ⟨hunknown, hcritical⟩
        rcases h.flags f hf with hflags | hflags
        · exact hcritical (hflags ▸ hzero)
        · exact hunknown ((h.critical f hf).mp hflags)
    · intro tag hpos hle
      exact not_not.mpr ((h.loopFrames.present_iff hle).mpr (h.mandatory tag hpos hle))
  · rintro ⟨hloop, hgood, hmandatory⟩
    refine ⟨hloop.count, hloop.increasing, hloop.flags, ?_, ?_⟩
    · intro tag hpos hle
      exact (hloop.present_iff hle).mp (not_not.mp (hmandatory tag hpos hle))
    · intro f hf
      constructor
      · intro hcritical
        by_contra hle
        exact (hgood f hf).2 ⟨hle, hcritical ▸ hone⟩
      · intro hle
        exact (hloop.flags f hf).resolve_left fun h => (hgood f hf).1 ⟨hle, h ▸ hzero⟩

/-- The replay parser on the bytes of a file. -/
theorem fdParseReplaySections_eq_ok {bytes : List UInt8} {result : Sections × Nat} :
    fdParseReplaySections bytes = .ok result ↔ ∃ frames, (∀ f ∈ frames, f.Sized) ∧
      SectionFile 5 frames ∧ slice bytes 8 (bytes.length - 40) = frames.flatMap Frame.bytes ∧
      result = (tableOf 5 frames, frames.length) := by
  simp only [fdParseReplaySections, bind_eq_ok]
  have haccepted_iff : ∀ frames, Accepted (fun s f => frameAccept s f ∧ replayGood f)
      (tableNext 5) SectionScan.start frames ↔ _ := fun frames => accepted_iff (by decide)
  constructor
  · rintro ⟨s, hloop, _, hmandatory, hresult⟩
    obtain ⟨frames, hframes, haccepted, rfl⟩ := sectionLoop_eq_ok parseReplaySection_parses hloop
    obtain ⟨hchain, hgood, hcount⟩ := (haccepted_iff frames).mp haccepted
    rw [foldl_tableNext_count, Nat.zero_add] at hresult
    cases hresult
    refine ⟨frames, haccepted.sized, sectionFile_replay_iff.mpr ⟨⟨?_, ?_, ?_⟩, ?_, ?_⟩,
      hframes, rfl⟩
    · rwa [Nat.zero_add] at hcount
    · exact List.isChain_iff_pairwise.mp hchain
    · exact fun f hf => known_flags_iff.mp (hgood f hf).2.1
    · exact fun f hf => (hgood f hf).2.2
    · intro tag htag
      exact failIf_eq_ok.mp (forEach_unit_eq_ok.mp hmandatory tag htag)
  · rintro ⟨frames, hsized, hfile, hframes, rfl⟩
    obtain ⟨hloop, hgood, hmandatory⟩ := sectionFile_replay_iff.mp hfile
    have haccepted := (haccepted_iff frames).mpr ⟨List.isChain_iff_pairwise.mpr hloop.increasing,
      fun f hf => ⟨hsized f hf, known_flags_iff.mpr (hloop.flags f hf), hgood f hf⟩,
      by rw [Nat.zero_add]; exact hloop.count⟩
    refine ⟨frames.foldl (tableNext 5) SectionScan.start, ?_, (), ?_, ?_⟩
    · rw [hframes]
      exact sectionLoop_frames parseReplaySection_parses haccepted
    · exact forEach_unit_eq_ok.mpr fun tag htag => failIf_eq_ok.mpr (hmandatory tag htag)
    · rw [foldl_tableNext_count, Nat.zero_add]
      rfl

end replay

section files

/-- From the accepted runs of frames to the grammar of a file whose size 64 bits hold. -/
theorem parsesFiles_of_eq_ok {parse : List UInt8 → Except Fail (Sections × Nat)} {known : UInt16}
    {bytes : List UInt8} (hsize : bytes.length ≤ uint64Max)
    (hparse : ∀ result, parse bytes = .ok result ↔ ∃ frames, (∀ f ∈ frames, f.Sized) ∧
      SectionFile known frames ∧
      slice bytes 8 (bytes.length - 40) = frames.flatMap Frame.bytes ∧
      result = (tableOf known frames, frames.length)) : ParsesFiles parse known bytes where
  succeeds_iff := by
    constructor
    · rintro ⟨result, hresult⟩
      obtain ⟨frames, -, hfile, hframes, -⟩ := (hparse result).mp hresult
      exact ⟨frames, hfile, hframes⟩
    · rintro ⟨frames, hfile, hframes⟩
      exact ⟨_, (hparse _).mpr ⟨frames, sized_of_bytes hsize hframes, hfile, hframes, rfl⟩⟩
  result := by
    intro frames hfile hframes
    refine ⟨tableOf known frames,
      (hparse _).mpr ⟨frames, sized_of_bytes hsize hframes, hfile, hframes, rfl⟩, ?_⟩
    intro f hf hknown
    rw [hfile.loopFrames.entry hf hknown]

end files

end FrontierDirectorate
