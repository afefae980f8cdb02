import Mathlib
import FrontierDirectorate.Core.Endian
import FrontierDirectorate.Core.Sha256
import FrontierDirectorate.Lib.Checks

/-!
# Framed sections

Both file formats are a magic, a run of framed sections and a footer. A frame is
a tag, flags, a zero word, the payload length, the payload and its digest. The
two section parsers run the same loop; what a loop accepts is exactly a
concatenation of frames.
-/
namespace FrontierDirectorate
open ByteCodec Checks

abbrev fdSectionCritical : UInt16 := 1

/-- The sixteen bytes in front of a payload. -/
def sectionHeader (tag flags : UInt16) (length : Nat) : List UInt8 :=
  fdStoreU16Le tag ++ (fdStoreU16Le flags ++ (fdStoreU32Le 0 ++
    fdStoreU64Le (UInt64.ofNat length)))

@[simp] theorem sectionHeader_length (tag flags : UInt16) (length : Nat) :
    (sectionHeader tag flags length).length = 16 := rfl

structure Frame where
  tag : UInt16
  flags : UInt16
  payload : List UInt8

namespace Frame

def bytes (f : Frame) : List UInt8 :=
  sectionHeader f.tag f.flags f.payload.length ++ (f.payload ++ (fdSha256 f.payload).toList)

/-- The framed size fits the 64-bit length arithmetic of the parsers. -/
def Sized (f : Frame) : Prop := f.payload.length ≤ uint64Max - 48

@[simp] theorem bytes_length (f : Frame) : f.bytes.length = 48 + f.payload.length := by
  simp only [bytes, List.length_append, sectionHeader_length, List.Vector.toList_length]
  omega

theorem bytes_ne_nil (f : Frame) (rest : List UInt8) : f.bytes ++ rest ≠ [] := by
  intro h
  have hlen := congrArg List.length h
  rw [List.length_append, bytes_length, List.length_nil] at hlen
  omega

theorem bytes_append (f : Frame) (rest : List UInt8) :
    f.bytes ++ rest = fdStoreU16Le f.tag ++ (fdStoreU16Le f.flags ++ (fdStoreU32Le 0 ++
      (fdStoreU64Le (UInt64.ofNat f.payload.length) ++
        (f.payload ++ ((fdSha256 f.payload).toList ++ rest))))) := by
  simp only [bytes, sectionHeader, List.append_assoc]

theorem drop_bytes (f : Frame) (rest : List UInt8) :
    (f.bytes ++ rest).drop (48 + f.payload.length) = rest := by
  rw [← bytes_length, List.drop_left]

/-- What the parsers read at the front of a written frame. -/
theorem read_tag (f : Frame) (rest : List UInt8) : fdLoadU16Le (f.bytes ++ rest) = f.tag := by
  rw [bytes_append, fdLoadU16Le_store]

theorem read_flags (f : Frame) (rest : List UInt8) :
    fdLoadU16Le ((f.bytes ++ rest).drop 2) = f.flags := by
  simp [bytes_append]

theorem read_reserved (f : Frame) (rest : List UInt8) :
    fdLoadU32Le ((f.bytes ++ rest).drop 4) = 0 := by
  simp [bytes_append]

theorem read_size {f : Frame} (h : f.Sized) (rest : List UInt8) :
    (fdLoadU64Le ((f.bytes ++ rest).drop 8)).toNat = f.payload.length := by
  have hread : fdLoadU64Le ((f.bytes ++ rest).drop 8) = UInt64.ofNat f.payload.length := by
    simp [bytes_append]
  rw [hread, UInt64.toNat_ofNat']
  unfold Sized uint64Max at h
  exact Nat.mod_eq_of_lt (by omega)

theorem read_payload (f : Frame) (rest : List UInt8) :
    slice (f.bytes ++ rest) 16 f.payload.length = f.payload := by
  have hdrop : (f.bytes ++ rest).drop 16 = f.payload ++ ((fdSha256 f.payload).toList ++ rest) := by
    simp [bytes_append]
  rw [slice, hdrop, List.take_left]

theorem read_digest (f : Frame) (rest : List UInt8) :
    slice (f.bytes ++ rest) (16 + f.payload.length) 32 = (fdSha256 f.payload).toList := by
  have hdrop : (f.bytes ++ rest).drop (16 + f.payload.length) =
      (fdSha256 f.payload).toList ++ rest := by
    rw [← List.drop_drop]
    have h16 : (f.bytes ++ rest).drop 16 =
        f.payload ++ ((fdSha256 f.payload).toList ++ rest) := by
      simp [bytes_append]
    rw [h16, List.drop_left]
  rw [slice, hdrop]
  exact List.take_left' (by simp)

/-- The frame that the parsers see at the front of a byte string. -/
def read (rest : List UInt8) : Frame where
  tag := fdLoadU16Le rest
  flags := fdLoadU16Le (rest.drop 2)
  payload := slice rest 16 (fdLoadU64Le (rest.drop 8)).toNat

theorem read_payload_length {rest : List UInt8}
    (hlen : 48 + (fdLoadU64Le (rest.drop 8)).toNat ≤ rest.length) :
    (read rest).payload.length = (fdLoadU64Le (rest.drop 8)).toNat := by
  rw [read, slice_length]
  omega

/-- A front that passes the parsers' checks is the written form of the frame they see. -/
theorem eq_bytes_append {rest : List UInt8} (hres : fdLoadU32Le (rest.drop 4) = 0)
    (hlen : 48 + (fdLoadU64Le (rest.drop 8)).toNat ≤ rest.length)
    (hdigest : (fdSha256 (slice rest 16 (fdLoadU64Le (rest.drop 8)).toNat)).toList =
      slice rest (16 + (fdLoadU64Le (rest.drop 8)).toNat) 32) :
    rest = (read rest).bytes ++ rest.drop (48 + (fdLoadU64Le (rest.drop 8)).toNat) := by
  have hsize := read_payload_length hlen
  have htag := fdStoreU16Le_load_drop rest 0 (by omega)
  have hflags := fdStoreU16Le_load_drop rest 2 (by omega)
  have hzero := fdStoreU32Le_load_drop rest 4 (by omega)
  have hlength := fdStoreU64Le_load_drop rest 8 (by omega)
  rw [List.drop_zero] at htag
  rw [hres] at hzero
  have hhead : sectionHeader (read rest).tag (read rest).flags (read rest).payload.length =
      slice rest 0 16 := by
    rw [sectionHeader, hsize, UInt64.ofNat_toNat, hlength, hzero, read, htag, hflags]
    simp only [slice_append_slice, Nat.reduceAdd]
  have hbody : (read rest).bytes = slice rest 0 (48 + (fdLoadU64Le (rest.drop 8)).toNat) := by
    rw [bytes, hhead]
    simp only [read, hdigest]
    rw [slice_append_slice rest rfl, slice_append_slice rest (by omega)]
    congr 1
    omega
  rw [hbody, slice_append_rest]

/-- A written frame is cut off the bytes behind it in one way only. -/
theorem bytes_append_inj {f g : Frame} (hf : f.Sized) (hg : g.Sized) {rest rest' : List UInt8}
    (h : f.bytes ++ rest = g.bytes ++ rest') : f = g ∧ rest = rest' := by
  have hlength : f.payload.length = g.payload.length := by
    rw [← read_size hf rest, ← read_size hg rest', h]
  have htag : f.tag = g.tag := by rw [← f.read_tag rest, ← g.read_tag rest', h]
  have hflags : f.flags = g.flags := by rw [← f.read_flags rest, ← g.read_flags rest', h]
  have hpayload : f.payload = g.payload := by
    rw [← f.read_payload rest, ← g.read_payload rest', h, hlength]
  constructor
  · cases f
    cases g
    simp only at htag hflags hpayload
    rw [htag, hflags, hpayload]
  · rw [← f.drop_bytes rest, ← g.drop_bytes rest', h, hlength]

/-- So does a run of frames. -/
theorem flatMap_bytes_inj {frames others : List Frame} (hframes : ∀ f ∈ frames, f.Sized)
    (hothers : ∀ f ∈ others, f.Sized)
    (h : frames.flatMap Frame.bytes = others.flatMap Frame.bytes) : frames = others := by
  induction frames generalizing others with
  | nil =>
      cases others with
      | nil => rfl
      | cons g gs => exact absurd h.symm (g.bytes_ne_nil _)
  | cons f fs ih =>
      cases others with
      | nil => exact absurd h (f.bytes_ne_nil _)
      | cons g gs =>
          obtain ⟨hf, hfs⟩ := List.forall_mem_cons.mp hframes
          obtain ⟨hg, hgs⟩ := List.forall_mem_cons.mp hothers
          rw [List.flatMap_cons, List.flatMap_cons] at h
          obtain ⟨rfl, hrest⟩ := bytes_append_inj hf hg h
          rw [ih hfs hgs hrest]

end Frame

section file

/-- What a reader finds in a magic, a run of frames and a footer. -/
structure FramedFile (magic framed footer bytes : List UInt8) : Prop where
  size : bytes.length = 40 + framed.length
  front : bytes.take 8 = magic
  body : bytes.take (bytes.length - 32) = magic ++ framed
  middle : slice bytes 8 (bytes.length - 40) = framed
  back : slice bytes (bytes.length - 32) 32 = footer

theorem framedFile {magic framed footer : List UInt8} (hmagic : magic.length = 8)
    (hfooter : footer.length = 32) : FramedFile magic framed footer (magic ++ framed ++ footer) := by
  have hlength : (magic ++ framed ++ footer).length = 40 + framed.length := by
    simp only [List.length_append, hmagic, hfooter]
    omega
  have hbody : (magic ++ framed ++ footer).length - 32 = (magic ++ framed).length := by
    simp only [List.length_append, hfooter, Nat.add_sub_cancel]
  refine ⟨hlength, ?_, ?_, ?_, ?_⟩
  · rw [List.append_assoc]
    exact List.take_left' hmagic
  · rw [hbody, List.take_left]
  · rw [slice, List.append_assoc, List.drop_left' hmagic]
    exact List.take_left' (by rw [← List.append_assoc, hlength, Nat.add_sub_cancel_left])
  · rw [slice, hbody, List.drop_left]
    exact List.take_of_length_le hfooter.le

end file

section loop

variable {σ : Type}

/-- The loop of the section parsers over the bytes up to the footer. `parse` reads one
section and returns its payload length. -/
def sectionLoop (parse : σ → List UInt8 → Except Fail (σ × Nat)) (s : σ) (rest : List UInt8) :
    Except Fail σ :=
  if _h : rest = [] then .ok s
  else
    match parse s rest with
    | .error failure => .error failure
    | .ok (next, length) => sectionLoop parse next (rest.drop (48 + length))
termination_by rest.length
decreasing_by
  have : 0 < rest.length := List.length_pos_iff.mpr ‹_›
  simp only [List.length_drop]
  omega

/-- Frames accepted one after another. -/
def Accepted (accept : σ → Frame → Prop) (next : σ → Frame → σ) : σ → List Frame → Prop
  | _, [] => True
  | s, f :: fs => (f.Sized ∧ accept s f) ∧ Accepted accept next (next s f) fs

theorem Accepted.sized {accept : σ → Frame → Prop} {next : σ → Frame → σ} {s : σ}
    {frames : List Frame} (h : Accepted accept next s frames) : ∀ f ∈ frames, f.Sized := by
  induction frames generalizing s with
  | nil => simp
  | cons f fs ih =>
      intro g hg
      rcases List.mem_cons.mp hg with rfl | hg
      · exact h.1.1
      · exact ih h.2 g hg

/-- A parser of one section that accepts exactly the written frames `accept` allows. -/
def ParsesFrames (parse : σ → List UInt8 → Except Fail (σ × Nat))
    (accept : σ → Frame → Prop) (next : σ → Frame → σ) : Prop :=
  ∀ s rest s' n, parse s rest = .ok (s', n) ↔
    ∃ f rest', (f.Sized ∧ accept s f) ∧ rest = f.bytes ++ rest' ∧ s' = next s f ∧
      n = f.payload.length

variable {parse : σ → List UInt8 → Except Fail (σ × Nat)} {accept : σ → Frame → Prop}
  {next : σ → Frame → σ}

theorem sectionLoop_frames (hparse : ParsesFrames parse accept next) {s : σ}
    {frames : List Frame} (h : Accepted accept next s frames) :
    sectionLoop parse s (frames.flatMap Frame.bytes) = .ok (frames.foldl next s) := by
  induction frames generalizing s with
  | nil =>
      rw [sectionLoop]
      rfl
  | cons f fs ih =>
      have hread : parse s (f.bytes ++ fs.flatMap Frame.bytes) =
          .ok (next s f, f.payload.length) :=
        (hparse _ _ _ _).mpr ⟨f, _, h.1, rfl, rfl, rfl⟩
      rw [List.flatMap_cons, sectionLoop, dif_neg (f.bytes_ne_nil _), hread]
      simp only
      rw [f.drop_bytes, ih h.2, List.foldl_cons]

theorem sectionLoop_eq_ok (hparse : ParsesFrames parse accept next) {s s' : σ}
    {rest : List UInt8} (h : sectionLoop parse s rest = .ok s') :
    ∃ frames, rest = frames.flatMap Frame.bytes ∧ Accepted accept next s frames ∧
      s' = frames.foldl next s := by
  rw [sectionLoop] at h
  split at h
  · next hnil =>
      cases h
      exact ⟨[], hnil, trivial, rfl⟩
  · next hne =>
      split at h
      · cases h
      · next s₁ n hstep =>
          obtain ⟨f, rest', hf, hrest, rfl, rfl⟩ := (hparse _ _ _ _).mp hstep
          rw [hrest, f.drop_bytes] at h
          have hdec : rest'.length < rest.length := by
            rw [hrest, List.length_append, f.bytes_length]
            omega
          obtain ⟨fs, hfs, hacc, hlast⟩ := sectionLoop_eq_ok hparse h
          exact ⟨f :: fs, by rw [hrest, hfs, List.flatMap_cons], ⟨hf, hacc⟩, hlast⟩
termination_by rest.length

end loop

end FrontierDirectorate
