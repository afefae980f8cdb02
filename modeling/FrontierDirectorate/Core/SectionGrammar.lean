import Mathlib
import FrontierDirectorate.Core.Serialize

/-!
# The container grammar

What the two section parsers have in common: frames in tag order, a table of the
known tags, and the rule which of them are critical.
-/
namespace FrontierDirectorate
open ByteCodec Checks

/-- A run of frames that makes up a file with the known tags `1 .. known`. -/
structure SectionFile (known : UInt16) (frames : List Frame) : Prop where
  count : frames.length ≤ 64
  increasing : (0 :: frames.map Frame.tag).Pairwise (· < ·)
  flags : ∀ f ∈ frames, f.flags = 0 ∨ f.flags = fdSectionCritical
  mandatory : ∀ tag, 0 < tag → tag ≤ known → ∃ f ∈ frames, f.tag = tag
  critical : ∀ f ∈ frames, f.flags = fdSectionCritical ↔ f.tag ≤ known

/-- Whether a parser takes exactly the files of the grammar, and what it returns for them. -/
structure ParsesFiles (parse : List UInt8 → Except Fail (Sections × Nat)) (known : UInt16)
    (bytes : List UInt8) : Prop where
  succeeds_iff : (∃ result, parse bytes = .ok result) ↔ ∃ frames, SectionFile known frames ∧
    slice bytes 8 (bytes.length - 40) = frames.flatMap Frame.bytes
  result : ∀ frames, SectionFile known frames →
    slice bytes 8 (bytes.length - 40) = frames.flatMap Frame.bytes →
    ∃ sections, parse bytes = .ok (sections, frames.length) ∧
      ∀ f ∈ frames, f.tag ≤ known → (sections f.tag.toNat).payload = f.payload

section flags

variable {flags : UInt16}

/-- The critical bit and the rest of the word. -/
theorem flags_split (flags : UInt16) :
    flags = (flags &&& fdSectionCritical) ||| (flags &&& ~~~ fdSectionCritical) := by
  apply UInt16.toBitVec_inj.mp
  have hall : fdSectionCritical.toBitVec ||| (~~~ fdSectionCritical).toBitVec =
      BitVec.allOnes 16 := by decide
  rw [UInt16.toBitVec_or, UInt16.toBitVec_and, UInt16.toBitVec_and, ← BitVec.and_or_distrib_left,
    hall, BitVec.and_allOnes]

theorem critical_bit (flags : UInt16) :
    flags &&& fdSectionCritical = 0 ∨ flags &&& fdSectionCritical = fdSectionCritical := by
  have hle : (flags &&& fdSectionCritical).toNat ≤ 1 := by
    rw [UInt16.toNat_and]
    exact Nat.and_le_right
  rcases Nat.le_one_iff_eq_zero_or_eq_one.mp hle with h | h
  · exact .inl (UInt16.toNat_inj.mp h)
  · exact .inr (UInt16.toNat_inj.mp h)

/-- The only flag word with the critical bit and no other. -/
theorem flags_eq_critical (hother : flags &&& ~~~ fdSectionCritical = 0)
    (hcritical : flags &&& fdSectionCritical ≠ 0) : flags = fdSectionCritical := by
  rw [flags_split flags, hother, (critical_bit flags).resolve_left hcritical]
  rfl

/-- The flag words that the parsers let through. -/
theorem known_flags_iff : flags &&& ~~~ fdSectionCritical = 0 ↔
    flags = 0 ∨ flags = fdSectionCritical := by
  constructor
  · intro h
    by_cases hcritical : flags &&& fdSectionCritical = 0
    · left
      rw [flags_split flags, h, hcritical]
      rfl
    · exact .inr (flags_eq_critical h hcritical)
  · rintro (rfl | rfl)
    · rfl
    · rfl

end flags

/-- What both parsers demand of the next frame. -/
def frameAccept (s : SectionScan) (f : Frame) : Prop :=
  s.previousTag < f.tag ∧ f.flags &&& ~~~ fdSectionCritical = 0 ∧ s.sectionCount < 64

/-- The table after one frame. -/
def tableNext (known : UInt16) (s : SectionScan) (f : Frame) : SectionScan where
  sections := if f.tag ≤ known then
    Function.update s.sections f.tag.toNat ⟨f.payload, f.flags, true⟩ else s.sections
  previousTag := f.tag
  sectionCount := s.sectionCount + 1

section table

variable {known : UInt16} {good : Frame → Prop} {s : SectionScan} {frames : List Frame}

/-- Frames accepted in a row: their tags rise, and each one passes on its own. -/
theorem accepted_iff (hcount : s.sectionCount ≤ 64) :
    Accepted (fun s f => frameAccept s f ∧ good f) (tableNext known) s frames ↔
      (s.previousTag :: frames.map Frame.tag).IsChain (· < ·) ∧
      (∀ f ∈ frames, f.Sized ∧ f.flags &&& ~~~ fdSectionCritical = 0 ∧ good f) ∧
      s.sectionCount + frames.length ≤ 64 := by
  induction frames generalizing s with
  | nil => simp [Accepted, hcount]
  | cons f fs ih =>
      rw [Accepted, List.map_cons, List.isChain_cons_cons, List.forall_mem_cons, List.length_cons]
      constructor
      · rintro ⟨⟨hsized, ⟨htag, hflags, hlt⟩, hgood⟩, hrest⟩
        obtain ⟨hchain, hall, hlength⟩ := (ih (show s.sectionCount + 1 ≤ 64 by omega)).mp hrest
        have hlength' : s.sectionCount + 1 + fs.length ≤ 64 := hlength
        exact ⟨⟨htag, hchain⟩, ⟨⟨hsized, hflags, hgood⟩, hall⟩, by omega⟩
      · rintro ⟨⟨htag, hchain⟩, ⟨⟨hsized, hflags, hgood⟩, hall⟩, hlength⟩
        refine ⟨⟨hsized, ⟨htag, hflags, by omega⟩, hgood⟩, ?_⟩
        apply (ih (show s.sectionCount + 1 ≤ 64 by omega)).mpr
        exact ⟨hchain, hall, show s.sectionCount + 1 + fs.length ≤ 64 by omega⟩

/-- An entry stays as it is while only other tags are read. -/
theorem foldl_tableNext_of_ne (s : SectionScan) {frames : List Frame} {t : Nat}
    (h : ∀ f ∈ frames, f.tag.toNat ≠ t) :
    (frames.foldl (tableNext known) s).sections t = s.sections t := by
  induction frames generalizing s with
  | nil => rfl
  | cons f fs ih =>
      rw [List.foldl_cons, ih _ fun g hg => h g (List.mem_cons_of_mem f hg)]
      simp only [tableNext]
      split
      · exact Function.update_of_ne (h f List.mem_cons_self).symm _ _
      · rfl

/-- Each known frame ends up in the table under its tag. -/
theorem foldl_tableNext_of_mem (hsorted : (frames.map Frame.tag).Pairwise (· < ·)) {f : Frame}
    (hf : f ∈ frames) (hknown : f.tag ≤ known) :
    (frames.foldl (tableNext known) s).sections f.tag.toNat = ⟨f.payload, f.flags, true⟩ := by
  induction frames generalizing s with
  | nil => cases hf
  | cons g gs ih =>
      rw [List.map_cons, List.pairwise_cons] at hsorted
      rcases List.mem_cons.mp hf with rfl | hf
      · rw [List.foldl_cons, foldl_tableNext_of_ne]
        · simp only [tableNext, if_pos hknown, Function.update_self]
        · intro g hg htag
          have hlt : f.tag < g.tag := hsorted.1 _ (List.mem_map.mpr ⟨g, hg, rfl⟩)
          rw [UInt16.lt_iff_toNat_lt] at hlt
          omega
      · exact ih hsorted.2 hf

/-- An entry that is present at the end but not at the start was read from a frame. -/
theorem exists_frame_of_present {t : Nat} (hs : (s.sections t).present = false)
    (hpresent : ((frames.foldl (tableNext known) s).sections t).present = true) :
    ∃ f ∈ frames, f.tag ≤ known ∧ f.tag.toNat = t := by
  induction frames generalizing s with
  | nil =>
      rw [List.foldl_nil, hs] at hpresent
      cases hpresent
  | cons f fs ih =>
      rw [List.foldl_cons] at hpresent
      by_cases hf : f.tag ≤ known ∧ f.tag.toNat = t
      · exact ⟨f, List.mem_cons_self, hf⟩
      · have hkeep : ((tableNext known s f).sections t).present = false := by
          simp only [tableNext]
          split
          · next hknown =>
              rw [Function.update_of_ne fun heq => hf ⟨hknown, heq.symm⟩, hs]
          · exact hs
        obtain ⟨g, hg, hgt⟩ := ih hkeep hpresent
        exact ⟨g, List.mem_cons_of_mem f hg, hgt⟩

theorem foldl_tableNext_count (s : SectionScan) (frames : List Frame) :
    (frames.foldl (tableNext known) s).sectionCount = s.sectionCount + frames.length := by
  induction frames generalizing s with
  | nil => rfl
  | cons f fs ih =>
      rw [List.foldl_cons, ih, List.length_cons]
      exact Nat.add_right_comm s.sectionCount 1 fs.length

end table

abbrev SectionScan.start : SectionScan := ⟨fun _ => .absent, 0, 0⟩

theorem forEach_unit_eq_ok {α ε : Type} {xs : List α} {check : α → Except ε Unit} :
    forEach xs (fun _ x => check x) () = .ok () ↔ ∀ x ∈ xs, check x = .ok () := by
  induction xs with
  | nil => simp
  | cons x xs ih =>
      rw [forEach_cons, bind_eq_ok]
      constructor
      · rintro ⟨_, hx, hxs⟩ y hy
        rcases List.mem_cons.mp hy with rfl | hy
        · exact hx
        · exact ih.mp hxs y hy
      · intro h
        exact ⟨(), h x List.mem_cons_self, ih.mpr fun y hy => h y (List.mem_cons_of_mem x hy)⟩

end FrontierDirectorate
