import Mathlib
import FrontierDirectorate.Core.SectionFiles
import FrontierDirectorate.Contract.Replays

/-!
# Files

What the readers of the two file formats take for a file.
-/
namespace FrontierDirectorate

section grammar

/-- Both section parsers take exactly the files of the container grammar, the save parser with the
known tags 1 to 11 and the replay parser with 1 to 5, and return the payload of each known frame
and the number of frames. -/
theorem section_parsers_exact (bytes : List UInt8) (_hlong : 88 ≤ bytes.length)
    (hsize : bytes.length ≤ uint64Max) :
    ParsesFiles fdParseSaveSections 11 bytes ∧ ParsesFiles fdParseReplaySections 5 bytes :=
  ⟨parsesFiles_of_eq_ok hsize fun _ => fdParseSaveSections_eq_ok,
    parsesFiles_of_eq_ok hsize fun _ => fdParseReplaySections_eq_ok⟩

theorem saveBytes_long (world : World) : 88 ≤ (saveBytes world).length := by
  rw [saveBytes_length, saveSize]
  omega

theorem replayTotal_long (world : World) (records audits : Nat) :
    88 ≤ replayTotal world records audits := by
  unfold replayTotal
  omega

/-- The replay of the sample's two attempts. -/
def sampleReplay : List UInt8 :=
  replayFile (sampleAt 0) (transcript (sampleAt 0) 0 sampleInput.entries).records
    (transcript (sampleAt 0) 0 sampleInput.entries).audits

theorem sampleReplay_length : sampleReplay.length =
    replayTotal (sampleAt 0) (transcript (sampleAt 0) 0 sampleInput.entries).records.length
      (transcript (sampleAt 0) 0 sampleInput.entries).audits.length :=
  replayFile_length (transcript_messages (@sampleAt_sound 0 rfl).valid 0 _)

theorem sampleReplay_parses : fdParseReplaySections sampleReplay =
    .ok (replayTable (sampleAt 0) (transcript (sampleAt 0) 0 sampleInput.entries).records
      (transcript (sampleAt 0) 0 sampleInput.entries).audits, 5) :=
  fdParseReplaySections_replayFile (transcript_messages (@sampleAt_sound 0 rfl).valid 0 _)
    (sample_buildable.total.trans (by decide))

/-- The save of the sample is a file of the first parser, its replay one of the second. -/
theorem section_parsers_exact_sample :
    (fdParseSaveSections (saveBytes (sampleAt 0)) = .ok (saveTable (sampleAt 0), 11) ∧
      ParsesFiles fdParseSaveSections 11 (saveBytes (sampleAt 0)) ∧
      ParsesFiles fdParseReplaySections 5 (saveBytes (sampleAt 0))) ∧
    ((∃ table, fdParseReplaySections sampleReplay = .ok (table, 5)) ∧
      ParsesFiles fdParseSaveSections 11 sampleReplay ∧
      ParsesFiles fdParseReplaySections 5 sampleReplay) := by
  have hsave : (saveBytes (sampleAt 0)).length ≤ uint64Max := by
    rw [saveBytes_length]
    exact (sampleAt_fits 0 rfl).trans (by decide)
  have hlong : 88 ≤ sampleReplay.length := sampleReplay_length ▸ replayTotal_long _ _ _
  have hreplay : sampleReplay.length ≤ uint64Max := by
    rw [sampleReplay_length]
    exact sample_buildable.total.trans (by decide)
  exact ⟨⟨fdParseSaveSections_saveBytes (sampleAt_sound rfl).bounded,
      section_parsers_exact _ (saveBytes_long _) hsave⟩,
    ⟨_, sampleReplay_parses⟩, section_parsers_exact _ hlong hreplay⟩

end grammar

end FrontierDirectorate
