import Mathlib
import FrontierDirectorate.Core.SectionGrammar

/-!
# The frames of a save

What the section parser of the save format accepts, and that a file with exactly
the known sections is determined by its section table.
-/
namespace FrontierDirectorate
open ByteCodec Checks

/-- When the save parser takes a frame. -/
def saveAccept (s : SectionScan) (f : Frame) : Prop :=
  s.previousTag < f.tag ∧ f.flags &&& ~~~ fdSectionCritical = 0 ∧
    ¬ (11 < f.tag ∧ f.flags &&& fdSectionCritical ≠ 0) ∧ s.sectionCount < 64

def saveNext (s : SectionScan) (f : Frame) : SectionScan where
  sections := if f.tag ≤ 11 then
    Function.update s.sections f.tag.toNat ⟨f.payload, f.flags, true⟩ else s.sections
  previousTag := f.tag
  sectionCount := s.sectionCount + 1

theorem parseSaveSection_parses : ParsesFrames parseSaveSection saveAccept saveNext := by
  intro s rest s' n
  simp only [parseSaveSection, failIf_bind_eq_ok]
  constructor
  · rintro ⟨hshort, hhead, hlength, hdigest, hcritical, hcount, hresult⟩
    simp only [not_or, not_lt, not_not] at hshort hhead hlength hdigest hcount
    simp only [Except.ok.injEq, Prod.mk.injEq] at hresult
    have hsize := Frame.read_payload_length hlength.2
    have haccept : saveAccept s (Frame.read rest) :=
      ⟨UInt16.not_le.mp hhead.1, hhead.2.2, hcritical, hcount⟩
    refine ⟨Frame.read rest, _, ⟨?_, haccept⟩,
      Frame.eq_bytes_append hhead.2.1 hlength.2 hdigest, ?_, ?_⟩
    · rw [Frame.Sized, hsize]
      exact hlength.1
    · rw [← hresult.1]
      rfl
    · rw [hsize, hresult.2]
  · rintro ⟨f, rest', ⟨hsized, htag, hflags, hcritical, hcount⟩, rfl, rfl, rfl⟩
    have hlen : (f.bytes ++ rest').length = 48 + f.payload.length + rest'.length := by
      rw [List.length_append, f.bytes_length]
    have htag' : ¬ f.tag ≤ s.previousTag := UInt16.not_le.mpr htag
    simp only [f.read_tag, f.read_flags, f.read_reserved, Frame.read_size hsized, f.read_payload,
      f.read_digest, hlen]
    unfold Frame.Sized at hsized
    refine ⟨by omega, ?_, by omega, not_not.mpr rfl, hcritical, by omega, rfl⟩
    simp only [htag', hflags, ne_eq, not_true_eq_false, or_self, not_false_eq_true]

theorem parseSaveLoop_frames {s : SectionScan} {frames : List Frame}
    (h : Accepted saveAccept saveNext s frames) :
    parseSaveLoop s (frames.flatMap Frame.bytes) = .ok (frames.foldl saveNext s) :=
  sectionLoop_frames parseSaveSection_parses h

theorem recountSections_frames {frames : List Frame} (h : ∀ f ∈ frames, f.Sized) :
    recountSections (frames.flatMap Frame.bytes) = frames.length := by
  induction frames with
  | nil =>
      rw [recountSections]
      rfl
  | cons f fs ih =>
      have hf : f.Sized := h f List.mem_cons_self
      rw [List.flatMap_cons, recountSections, dif_neg (f.bytes_ne_nil _), Frame.read_size hf,
        f.drop_bytes, ih fun g hg => h g (List.mem_cons_of_mem f hg), List.length_cons]

section table

variable {s : SectionScan} {frames : List Frame}

theorem saveNext_eq : saveNext = tableNext 11 := rfl

theorem saveAccept_eq : saveAccept = fun s f => frameAccept s f ∧
    ¬ (11 < f.tag ∧ f.flags &&& fdSectionCritical ≠ 0) := by
  funext s f
  exact propext ⟨fun ⟨htag, hflags, hcritical, hcount⟩ => ⟨⟨htag, hflags, hcount⟩, hcritical⟩,
    fun ⟨⟨htag, hflags, hcount⟩, hcritical⟩ => ⟨htag, hflags, hcritical, hcount⟩⟩

/-- The frames that the save parser accepts in a row. -/
theorem saveAccepted_iff : Accepted saveAccept saveNext SectionScan.start frames ↔
    (0 :: frames.map Frame.tag).IsChain (· < ·) ∧
    (∀ f ∈ frames, f.Sized ∧ f.flags &&& ~~~ fdSectionCritical = 0 ∧
      ¬ (11 < f.tag ∧ f.flags &&& fdSectionCritical ≠ 0)) ∧ frames.length ≤ 64 := by
  rw [saveAccept_eq, saveNext_eq, accepted_iff (by decide)]
  simp only [Nat.zero_add]

end table

/-- The tags of the known sections. -/
def knownTags : List UInt16 := [1, 2, 3, 4, 5, 6, 7, 8, 9, 10, 11]

theorem knownTags_range : ∀ t ∈ knownTags, t ≤ 11 ∧ t.toNat ∈ List.range' 1 11 := by
  simp [knownTags]

/-- A sorted list of eleven tags that contains all known ones is the list of known ones. -/
theorem eq_knownTags {tags : List UInt16} (hsorted : tags.Pairwise (· < ·))
    (hlen : tags.length = 11) (hall : ∀ t ∈ knownTags, t ∈ tags) : tags = knownTags := by
  have hknown : knownTags.Pairwise (· < ·) := by decide
  have hsub : knownTags.Subperm tags := List.subperm_of_subset hknown.nodup hall
  have hperm : knownTags.Perm tags := hsub.perm_of_length_le (by rw [hlen]; decide)
  exact hperm.symm.eq_of_pairwise (fun a b _ _ hab hba => absurd hab (UInt16.lt_asymm hba))
    hsorted hknown

/-- The frames that a section table stands for. -/
def tableFrames (sections : Sections) : List Frame :=
  knownTags.map fun tag => ⟨tag, fdSectionCritical, (sections tag.toNat).payload⟩

/-- A file of exactly the known sections is its table, written out. -/
theorem framed_eq_of_parse {bytes : List UInt8} {sections : Sections}
    (h : fdParseSaveSections bytes = .ok (sections, 11)) :
    slice bytes 8 (bytes.length - 40) = (tableFrames sections).flatMap Frame.bytes := by
  simp only [fdParseSaveSections, bind_eq_ok] at h
  obtain ⟨s, hloop, _, hmandatory, hresult⟩ := h
  obtain ⟨frames, hframes, haccepted, rfl⟩ := sectionLoop_eq_ok parseSaveSection_parses hloop
  rw [hframes, recountSections_frames haccepted.sized] at hresult
  simp only [Except.ok.injEq, Prod.mk.injEq] at hresult
  obtain ⟨rfl, hcount⟩ := hresult
  obtain ⟨hchain, hgood, -⟩ := saveAccepted_iff.mp haccepted
  have hsorted := (List.pairwise_cons.mp (List.isChain_iff_pairwise.mp hchain)).2
  have hcheck : ∀ tag ∈ List.range' 1 11,
      ((frames.foldl saveNext SectionScan.start).sections tag).present = true ∧
        ((frames.foldl saveNext SectionScan.start).sections tag).flags &&& fdSectionCritical ≠ 0 := by
    intro tag htag
    have hok := failIf_eq_ok.mp (forEach_unit_eq_ok.mp hmandatory tag htag)
    simpa only [not_or, not_not] using hok
  have hall : ∀ t ∈ knownTags, t ∈ frames.map Frame.tag := by
    intro t ht
    have hrange : t.toNat ∈ List.range' 1 11 := (knownTags_range t ht).2
    obtain ⟨f, hf, -, hft⟩ := exists_frame_of_present (s := SectionScan.start) rfl (hcheck _ hrange).1
    exact List.mem_map.mpr ⟨f, hf, UInt16.toNat_inj.mp hft⟩
  have htags : frames.map Frame.tag = knownTags :=
    eq_knownTags hsorted (by rw [List.length_map, hcount]) hall
  have hself : ∀ f ∈ frames, (⟨f.tag, fdSectionCritical,
      ((frames.foldl saveNext SectionScan.start).sections f.tag.toNat).payload⟩ : Frame) = f := by
    intro f hf
    have hmem : f.tag ∈ knownTags := htags ▸ List.mem_map.mpr ⟨f, hf, rfl⟩
    obtain ⟨hknown, hrange⟩ := knownTags_range _ hmem
    have hentry : (frames.foldl saveNext SectionScan.start).sections f.tag.toNat = _ :=
      foldl_tableNext_of_mem hsorted hf hknown
    have hflags := (hcheck _ hrange).2
    rw [hentry] at hflags
    rw [hentry, ← flags_eq_critical (hgood f hf).2.1 hflags]
  rw [hframes, tableFrames, ← htags, List.map_map]
  conv_lhs => rw [← List.map_id frames]
  congr 1
  exact List.map_congr_left fun f hf => (hself f hf).symm

end FrontierDirectorate
