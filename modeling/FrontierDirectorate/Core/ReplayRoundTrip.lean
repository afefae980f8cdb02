import Mathlib
import FrontierDirectorate.Core.ReplayBuildLaws

/-!
# Opening a built replay

The parser finds the five frames of a built file, the counts agree with them, and
every later check accepts the transcript.
-/
namespace FrontierDirectorate
open Accounting ByteCodec Checks

section parse

variable {context : FdContext} {world : World} {records : List ReplayRecord}
  {audits : List ReplayAudit}

theorem replayFile_framed (world : World) (records : List ReplayRecord)
    (audits : List ReplayAudit) : FramedFile fdReplayMagic
      ((replayFrames world records audits).flatMap Frame.bytes)
      (fdReplayFooterDigest (replayFileBody world records audits)).toList
      (replayFile world records audits) :=
  framedFile rfl (List.Vector.toList_length _)

theorem replayFrames_sectionFile (world : World) (records : List ReplayRecord)
    (audits : List ReplayAudit) : SectionFile 5 (replayFrames world records audits) where
  count := by
    change 5 ≤ 64
    decide
  increasing := by
    change [(0 : UInt16), 1, 2, 3, 4, 5].Pairwise (· < ·)
    decide
  flags := by simp [replayFrames]
  mandatory := by
    intro tag hpos hle
    have hpos := UInt16.lt_iff_toNat_lt.mp hpos
    have hle := UInt16.le_iff_toNat_le.mp hle
    change 0 < tag.toNat at hpos
    change tag.toNat ≤ 5 at hle
    obtain ⟨n, hn⟩ : ∃ n, n = tag.toNat := ⟨_, rfl⟩
    obtain rfl : UInt16.ofNat n = tag := by rw [hn, UInt16.ofNat_toNat]
    rw [← hn] at hpos hle
    interval_cases n <;> simp [replayFrames]
  critical := by simp [replayFrames]

/-- The table of a built file. -/
def replayTable (world : World) (records : List ReplayRecord) (audits : List ReplayAudit) :
    Sections := tableOf 5 (replayFrames world records audits)

theorem replayTable_payload (tag : UInt16) (payload : List UInt8) (hknown : tag ≤ 5)
    (hf : ⟨tag, fdSectionCritical, payload⟩ ∈ replayFrames world records audits) :
    (replayTable world records audits tag.toNat).payload = payload := by
  have hentry := (replayFrames_sectionFile world records audits).loopFrames.entry hf hknown
  exact congrArg Section.payload hentry

theorem replayTable_manifest : (replayTable world records audits 1).payload =
    replayManifestPayload records.length (records.length / 1024) audits.length :=
  replayTable_payload 1 _ (by decide) (.head _)

theorem replayTable_save : (replayTable world records audits 2).payload = saveBytes world :=
  replayTable_payload 2 _ (by decide) (.tail _ (.head _))

theorem replayTable_records : (replayTable world records audits 3).payload =
    fdStoreU64Le (UInt64.ofNat records.length) ++ records.flatMap fdEncodeReplayRecord :=
  replayTable_payload 3 _ (by decide) (.tail _ (.tail _ (.head _)))

theorem replayTable_audits : (replayTable world records audits 4).payload =
    fdStoreU32Le (UInt32.ofNat audits.length) ++ audits.flatMap ReplayAudit.encode :=
  replayTable_payload 4 _ (by decide) (.tail _ (.tail _ (.tail _ (.head _))))

theorem replayTable_checkpoints : (replayTable world records audits 5).payload =
    fdStoreU32Le (UInt32.ofNat (records.length / 1024)) ++
      checkpointsAfter world.reloaded 0 records.length :=
  replayTable_payload 5 _ (by decide) (.tail _ (.tail _ (.tail _ (.tail _ (.head _)))))

/-- The parser takes a built file. -/
theorem fdParseReplaySections_replayFile
    (hmessages : ∀ audit ∈ audits, audit.message.length < 160)
    (htotal : replayTotal world records.length audits.length ≤ uint64Max) :
    fdParseReplaySections (replayFile world records audits) =
      .ok (replayTable world records audits, 5) := by
  have hframed := (replayFile_framed world records audits).middle
  have hlength : (replayFile world records audits).length = _ := replayFile_length hmessages
  exact fdParseReplaySections_eq_ok.mpr ⟨_, sized_of_bytes (by omega) hframed,
    replayFrames_sectionFile world records audits, hframed, rfl⟩

/-- The file checks take a built file. -/
theorem openSections_replayFile
    (hmessages : ∀ audit ∈ audits, audit.message.length < 160)
    (htotal : replayTotal world records.length audits.length ≤ context.maxFileBytes.toNat) :
    openSections context (replayFile world records audits) =
      .ok (replayTable world records audits, 5) := by
  have hfile := replayFile_framed world records audits
  have hlt := context.maxFileBytes.toNat_lt
  have hlength : (replayFile world records audits).length = _ := replayFile_length hmessages
  have hparse : fdParseReplaySections (replayFile world records audits) = _ :=
    fdParseReplaySections_replayFile hmessages
      (show replayTotal world records.length audits.length ≤ 18446744073709551615 by omega)
  have hshort : ¬ ((replayFile world records audits).length < 8 + 32 + 48 ∨
      (replayFile world records audits).take 8 ≠ fdReplayMagic) := by
    rw [hfile.front, hlength, replayTotal]
    simp only [ne_eq, not_true_eq_false, or_false]
    omega
  rw [openSections, failIf_bind_of_not (by omega), failIf_bind_of_not (fun h => hshort h.1),
    failIf_bind_of_not hshort, failIf_bind_of_not, hparse]
  rw [hfile.body, hfile.back, not_not]
  rfl

/-- The manifest of a built file is consistent with its sections. -/
theorem openManifest_replayTable
    (hmessages : ∀ audit ∈ audits, audit.message.length < 160)
    (haudits : audits.length ≤ uint32Max) (hcheckpoints : records.length / 1024 ≤ uint32Max)
    (htotal : replayTotal world records.length audits.length ≤ uint64Max) :
    openManifest (replayTable world records audits) 5 =
      .ok ⟨records.length, records.length / 1024, audits.length⟩ := by
  have hbound : replayTotal world records.length audits.length ≤ 18446744073709551615 := htotal
  unfold uint32Max at haudits hcheckpoints
  have hrecords : records.length * 228 + 400 ≤ 18446744073709551615 := by
    unfold replayTotal at hbound
    omega
  have hrecordCount : (UInt64.ofNat records.length).toNat = records.length :=
    UInt64.toNat_ofNat_of_lt' (by rw [UInt64.size]; omega)
  have hauditCount : (UInt32.ofNat audits.length).toNat = audits.length :=
    UInt32.toNat_ofNat_of_lt' (by rw [UInt32.size]; omega)
  have hcheckpointCount : (UInt32.ofNat (records.length / 1024)).toNat = records.length / 1024 :=
    UInt32.toNat_ofNat_of_lt' (by rw [UInt32.size]; omega)
  have hlengths : ReplayCounts.lengths ⟨records.length, records.length / 1024, audits.length⟩ =
      some (records.length * 228 + 8, audits.length * 328 + 4, records.length + audits.length) := by
    unfold ReplayCounts.lengths
    rw [show fdReplayRecordWireSize = 228 from rfl, show fdReplayAuditWireSize = 328 from rfl]
    simp only [Option.bind_eq_bind]
    rw [fdU64Mul_eq (by unfold uint64Max; omega), Option.bind_some,
      fdU64Add_eq (by unfold uint64Max; omega), Option.bind_some,
      fdU64Mul_eq (by unfold uint64Max; omega), Option.bind_some,
      fdU64Add_eq (by unfold uint64Max; omega), Option.bind_some,
      fdU64Add_eq (by unfold uint64Max; omega), Option.bind_some]
  have hconsistent : countsConsistent (replayTable world records audits)
      ⟨records.length, records.length / 1024, audits.length⟩ = true := by
    unfold countsConsistent
    rw [hlengths, replayTable_records, replayTable_audits, replayTable_checkpoints]
    simp only [List.length_append, fdStoreU64Le_length, fdStoreU32Le_length,
      flatMap_encodeReplayRecord_length, flatMap_encodeAudit_length hmessages, fdLoadU64Le_store,
      fdLoadU32Le_store, hrecordCount, hauditCount, hcheckpointCount, Bool.and_eq_true,
      decide_eq_true_eq]
    refine ⟨⟨⟨⟨⟨⟨⟨?_, trivial⟩, ?_⟩, trivial⟩, ?_⟩, trivial⟩, ?_⟩, trivial⟩
    · omega
    · omega
    · omega
    · change records.length / 1024 ≤ 4294967295
      omega
  obtain ⟨manifest, hmanifest⟩ : ∃ manifest, manifest =
    replayManifestPayload records.length (records.length / 1024) audits.length := ⟨_, rfl⟩
  have hlength : manifest.length = 28 := hmanifest ▸ rfl
  have hversions : fdLoadU16Le manifest = fdReplayVersionMajor ∧
      fdLoadU16Le (manifest.drop 4) = fdReplayVersionMajor ∧ fdLoadU16Le (manifest.drop 6) = 0 ∧
      fdLoadU32Le (manifest.drop 8) = UInt32.ofNat fdReplaySectionCount := by
    rw [hmanifest, replayManifestPayload]
    simp
  have hcounts : fdLoadU64Le (manifest.drop 12) = UInt64.ofNat records.length ∧
      fdLoadU32Le (manifest.drop 20) = UInt32.ofNat (records.length / 1024) ∧
      fdLoadU32Le (manifest.drop 24) = UInt32.ofNat audits.length := by
    rw [hmanifest, replayManifestPayload]
    simp
  obtain ⟨hmajor, hread, hminor, hsections⟩ := hversions
  unfold openManifest
  rw [replayTable_manifest, ← hmanifest]
  simp only [hcounts, hrecordCount, hauditCount, hcheckpointCount, hmajor, hread, hminor, hsections,
    hlength]
  rw [failIf_bind_of_not (by decide), failIf_bind_of_not (not_not.mpr hconsistent)]

end parse

section checks

variable {context : FdContext} {origin last : World} {records : List ReplayRecord}

/-- The clock at the end of a run. -/
theorem PassRun.tick (h : PassRun origin records last) :
    last.tick.toNat = origin.tick.toNat + 24 * records.length := by
  induction h with
  | nil world => rfl
  | @cons world last records clock rest ih =>
      have hnext : (stepWorld world).tick.toNat = world.tick.toNat + 24 := tick_add clock
      rw [ih, hnext, List.length_cons]
      omega

/-- The checkpoints of a run are accepted, from any of them on. -/
theorem checkCheckpoints_run (hcontext : context.NeverFails) (hrun : PassRun origin records last)
    (hsound : origin.Sound context) (htick : origin.tick = 0)
    (hfits : saveSize origin ≤ context.maxFileBytes.toNat)
    (hclock : 24 * records.length ≤ 18446744073709551591) (n j : Nat)
    (hn : (j + n) * 1024 ≤ records.length) (s : Ledger) :
    (checkCheckpoints context records n j ((List.range' (j + 1) n).flatMap fun k =>
      encodeCheckpoint (k * 1024) (origin.after (k * 1024))) s).1 = .ok () := by
  induction n generalizing j s with
  | zero => rfl
  | succ n ih =>
      obtain ⟨rest, hrest⟩ : ∃ rest, rest = (List.range' (j + 1 + 1) n).flatMap fun k =>
        encodeCheckpoint (k * 1024) (origin.after (k * 1024)) := ⟨_, rfl⟩
      obtain ⟨k, hk⟩ : ∃ k, k = (j + 1) * 1024 := ⟨_, rfl⟩
      have hle : k ≤ records.length := by omega
      have hsize : saveSize (origin.after k) = saveSize origin := saveSize_after origin k
      have hbound := saveSize_le hsound.bounded
      have hworld := (hrun.take hle).sound hsound
      have hclockAt := (hrun.take hle).tick
      rw [List.length_take, Nat.min_eq_left hle, htick] at hclockAt
      have hlast : (origin.after k).tick ≤ UInt64.ofNat uint64Max - fdOperationalTicks := by
        rw [UInt64.le_iff_toNat_le, hclockAt]
        change 0 + 24 * k ≤ 18446744073709551591
        omega
      have hload := fdWorldLoad_of_loadsTo hcontext
        (loadsTo_saveBytes hworld hlast (by rw [hsize]; exact hfits))
      have hoffset : (UInt64.ofNat k).toNat = k :=
        UInt64.toNat_ofNat_of_lt' (by rw [UInt64.size]; omega)
      have hlength : (UInt64.ofNat (saveSize origin)).toNat = saveSize origin :=
        UInt64.toNat_ofNat_of_lt' (by rw [UInt64.size]; omega)
      have hbytes : (saveBytes (origin.after k)).length = saveSize origin := by
        rw [saveBytes_length, hsize]
      have hpost : (records[k - 1]?).map ReplayRecord.postHash =
          some (origin.after k).reloaded.stateSha256 := by
        have hrecord := (hrun.record (show k - 1 < records.length by omega)).1
        have hstep : origin.after k = stepWorld (origin.after (k - 1)) := by
          rw [← World.after_succ, Nat.sub_add_cancel (by omega)]
        rw [hrecord, hstep]
        rfl
      obtain ⟨bytes, hsplit⟩ : ∃ bytes, bytes = (List.range' (j + 1) (n + 1)).flatMap fun k =>
        encodeCheckpoint (k * 1024) (origin.after (k * 1024)) := ⟨_, rfl⟩
      rw [← hsplit]
      rw [List.range'_succ, List.flatMap_cons, ← hrest, ← hk, encodeCheckpoint, hsize,
        List.append_assoc, List.append_assoc] at hsplit
      have hlong : 16 ≤ bytes.length := by
        rw [hsplit]
        simp only [List.length_append, fdStoreU64Le_length]
        omega
      have hindex : fdLoadU64Le bytes = UInt64.ofNat k := by rw [hsplit, fdLoadU64Le_store]
      have hbody : bytes.drop 8 = fdStoreU64Le (UInt64.ofNat (saveSize origin)) ++
          (saveBytes (origin.after k) ++ rest) := by
        rw [hsplit]
        exact List.drop_left' (fdStoreU64Le_length _)
      have hsave : bytes.drop 16 = saveBytes (origin.after k) ++ rest := by
        have hdrop : (bytes.drop 8).drop 8 = bytes.drop 16 := List.drop_drop
        rw [← hdrop, hbody]
        exact List.drop_left' (fdStoreU64Le_length _)
      have hoffsets : ¬ (k ≠ (j + 1) * fdReplayCheckpointInterval ∨
          (saveBytes (origin.after k) ++ rest).length < saveSize origin) := by
        rw [List.length_append, hbytes, show fdReplayCheckpointInterval = 1024 from rfl]
        omega
      have hstate : ¬ ((origin.after k).reloaded.tick.toNat ≠ k * fdOperationalTicks.toNat ∨
          (records[k - 1]?).map ReplayRecord.postHash ≠
            some (origin.after k).reloaded.stateSha256) := by
        rw [hpost]
        have hzero : (0 : UInt64).toNat = 0 := rfl
        have hday : fdOperationalTicks.toNat = 24 := rfl
        have htime : (origin.after k).reloaded.tick.toNat = k * fdOperationalTicks.toNat := by
          rw [hday]
          exact hclockAt.trans (by rw [hzero]; omega)
        exact not_or.mpr ⟨not_not.mpr htime, not_not.mpr rfl⟩
      have hlater : (j + 1 + n) * 1024 ≤ records.length :=
        (congrArg (· * 1024) (Nat.add_right_comm j 1 n)).trans_le hn
      have hnext := ih (j + 1) hlater
      rw [← hrest] at hnext
      rw [checkCheckpoints, if_neg (not_lt.mpr hlong)]
      simp only [hindex, hbody, hsave, fdLoadU64Le_store, hoffset, hlength]
      rw [if_neg hoffsets, List.take_left' hbytes, List.drop_left' hbytes]
      simp only [run_bind, hload, if_neg hstate, hnext]

end checks

section reopen

variable {context : FdContext} {world : World} {decisions : List JointDecision}

/-- Every attempt is a record or an audit. -/
theorem transcript_length (hvalid : world.Valid) (index : Nat) (decisions : List JointDecision) :
    (transcript world index decisions).records.length +
      (transcript world index decisions).audits.length = decisions.length := by
  induction decisions generalizing world index with
  | nil => rfl
  | cons decision rest ih =>
      cases h : stepRefusal world decision with
      | some failure =>
          rw [transcript_of_refused hvalid h, List.length_cons, ← ih hvalid (index + 1)]
          exact (Nat.add_assoc _ _ 1).symm
      | none =>
          rw [transcript_of_accepted hvalid h, List.length_cons,
            ← ih (valid_stepWorld hvalid) (index + 1)]
          exact Nat.add_right_comm _ 1 _

theorem allocateReplay_neverFails (hcontext : context.NeverFails) {memory : ReplayMemory}
    (hsave : memory.save ≠ 0) (s : Ledger) : (allocateReplay context memory s).1 = .ok () := by
  have hreplay : replayBytes ≠ 0 := by decide
  unfold allocateReplay
  simp only [run_bind, run_ite, fdContextAlloc_neverFails hcontext hreplay,
    fdContextAlloc_neverFails hcontext hsave, Bool.not_true, Bool.false_eq_true, if_false]
  by_cases hrecords : memory.records = 0
  · by_cases haudits : memory.audits = 0
    · simp only [hrecords, haudits, if_true, run_pure, Bool.not_true, Bool.false_eq_true, if_false]
    · simp only [hrecords, haudits, if_true, if_false, run_pure, Bool.not_true,
        Bool.false_eq_true, fdContextAlloc_neverFails hcontext haudits]
  · by_cases haudits : memory.audits = 0
    · simp only [hrecords, haudits, if_true, if_false, run_pure, Bool.not_true,
        Bool.false_eq_true, fdContextAlloc_neverFails hcontext hrecords]
    · simp only [hrecords, haudits, if_false, run_pure, Bool.not_true,
        Bool.false_eq_true, fdContextAlloc_neverFails hcontext hrecords,
        fdContextAlloc_neverFails hcontext haudits]

/-- The transcript of a buildable list passes the checks of the opener. -/
theorem verifyReplay_replayTable (hcontext : context.NeverFails) (hsound : world.Sound context)
    (h : Buildable context world decisions) (s : Ledger) :
    (verifyReplay context (replayTable world (transcript world 0 decisions).records
        (transcript world 0 decisions).audits)
      ⟨(transcript world 0 decisions).records.length,
        (transcript world 0 decisions).records.length / 1024,
        (transcript world 0 decisions).audits.length⟩ world.reloaded s).1 =
      .ok ((transcript world 0 decisions).records, (transcript world 0 decisions).audits) := by
  have hvalid := valid_reloaded hsound.valid
  have htick : world.reloaded.tick = 0 := h.tickZero
  have hlength := transcript_length hvalid 0 decisions
  have hrun := transcript_passRun hvalid 0 decisions
  have hmerge := merge_transcript hvalid 0 decisions (by have := h.clock; omega)
  have hload := fdWorldLoad_of_loadsTo hcontext
    (loadsTo_saveBytes hsound (by rw [h.tickZero]; decide) h.fits)
  have hreloaded := transcript_reloaded hsound.valid 0 decisions
  obtain ⟨t, ht⟩ : ∃ t, t = transcript world.reloaded 0 decisions := ⟨_, rfl⟩
  have hrecords : (transcript world 0 decisions).records = t.records := by rw [ht, hreloaded]
  have haudits : (transcript world 0 decisions).audits = t.audits := by rw [ht, hreloaded]
  rw [hrecords, haudits]
  have hdecoded : decodeRecords world.reloaded.region.foreignFactionIds
      ((replayTable world t.records t.audits 3).payload.drop 8) t.records.length 0 0
        world.reloaded.stateSha256 = .ok t.records := by
    rw [replayTable_records, List.drop_left' (fdStoreU64Le_length _), ← htick, ht]
    exact decodeRecords_passRun hrun rfl (by rw [htick]; decide) (fun h => absurd h (by decide))
      (List.append_nil _).symm
  have hattempts : ReplayCounts.attempts ⟨(transcript world.reloaded 0 decisions).records.length,
      (transcript world.reloaded 0 decisions).records.length / 1024,
      (transcript world.reloaded 0 decisions).audits.length⟩ = 0 + decisions.length :=
    hlength.trans (Nat.zero_add _).symm
  have hrejected : decodeAudits ⟨t.records.length, t.records.length / 1024, t.audits.length⟩
      ((replayTable world t.records t.audits 4).payload.drop 4) t.audits.length 0 none =
        .ok t.audits := by
    rw [replayTable_audits, List.drop_left' (fdStoreU32Le_length _), ht]
    exact decodeAudits_transcript hvalid 0 0 decisions (Nat.le_refl 0) (by rw [htick]; decide)
      (by rw [htick]; decide) hattempts (by have := h.clock; omega)
      (Nat.zero_add _).symm (fun last hlast => by cases hlast) (List.append_nil _).symm
  have hmerged : mergeReplay world.reloaded t.records t.audits
      (ReplayCounts.attempts ⟨t.records.length, t.records.length / 1024, t.audits.length⟩) =
        .ok () := by
    rw [mergeReplay, ht, hattempts, Nat.zero_add, List.range_eq_range', hmerge, ok_bind]
    exact failIf_false (by simp)
  have hchecked : ∀ s, (checkCheckpoints context t.records (t.records.length / 1024) 0
      ((replayTable world t.records t.audits 5).payload.drop 4) s).1 = .ok () := by
    intro s
    have hcount := h.count
    have hmax := context.maxFileBytes.toNat_lt
    have hshort : t.records.length ≤ decisions.length := by
      rw [ht]
      omega
    rw [replayTable_checkpoints, List.drop_left' (fdStoreU32Le_length _), checkpointsAfter_eq, ht]
    rw [ht] at hshort
    exact checkCheckpoints_run hcontext hrun hsound.reloaded htick h.fits (by omega) _ 0
      (by omega) s
  unfold verifyReplay
  simp only [hdecoded, hrejected, ok_bind, run_bind, replayTable_save, hload, hmerged, hchecked,
    run_pure]
  rfl

set_option maxRecDepth 2000 in
/-- A built file is opened, and holds the transcript. -/
theorem fdReplayOpen_replayFile (hcontext : context.NeverFails) (hsound : world.Sound context)
    (h : Buildable context world decisions)
    (hmemory : (transcript world 0 decisions).records.length * 256 ≤ uint64Max) (s : Ledger) :
    ∃ replay, (fdReplayOpen context (replayFile world (transcript world 0 decisions).records
        (transcript world 0 decisions).audits) s).1 = .ok replay ∧
      replay.records = (transcript world 0 decisions).records ∧
      replay.audits = (transcript world 0 decisions).audits ∧
      replay.tickZeroHash = world.stateSha256 := by
  have hmessages := transcript_messages hsound.valid 0 decisions
  have hmax := context.maxFileBytes.toNat_lt
  have htotal := h.total
  have hsections : openSections context (replayFile world _ _) = _ :=
    openSections_replayFile hmessages htotal
  have hmanifest : openManifest (replayTable world _ _) 5 = _ :=
    openManifest_replayTable hmessages h.audits h.checkpoints
      (htotal.trans (Nat.le_of_lt_succ hmax))
  have hload := fdWorldLoad_of_loadsTo hcontext
    (loadsTo_saveBytes hsound (by rw [h.tickZero]; decide) h.fits)
  have hverify := verifyReplay_replayTable hcontext hsound h
  have hreplayMemory : replayMemory (saveBytes world).length
      ⟨(transcript world 0 decisions).records.length,
        (transcript world 0 decisions).records.length / 1024,
        (transcript world 0 decisions).audits.length⟩ =
      some ⟨UInt64.ofNat (saveBytes world).length,
        UInt64.ofNat ((transcript world 0 decisions).records.length * 256),
        UInt64.ofNat ((transcript world 0 decisions).audits.length * 328)⟩ := by
    unfold replayMemory
    rw [show sizeofFdReplayRecord = 256 from rfl, show sizeofFdReplayAudit = 328 from rfl,
      fdU64Mul_eq hmemory, fdU64Mul_eq]
    · rfl
    · unfold replayTotal at htotal
      change (transcript world 0 decisions).audits.length * 328 ≤ 18446744073709551615
      omega
  have hsave : UInt64.ofNat (saveBytes world).length ≠ 0 := by
    have hle := saveSize_le hsound.bounded
    intro hzero
    have hnat := congrArg UInt64.toNat hzero
    rw [saveBytes_length, UInt64.toNat_ofNat', UInt64.toNat_zero] at hnat
    unfold saveSize at hnat hle
    omega
  have hallocated : ∀ s, (allocateReplay context ⟨UInt64.ofNat (saveBytes world).length,
      UInt64.ofNat ((transcript world 0 decisions).records.length * 256),
      UInt64.ofNat ((transcript world 0 decisions).audits.length * 328)⟩ s).1 = .ok () :=
    allocateReplay_neverFails hcontext hsave
  have hzero : ¬ world.reloaded.tick ≠ 0 := not_not.mpr h.tickZero
  unfold fdReplayOpen
  simp only [hsections, hmanifest, ok_bind, run_bind, replayTable_save, hload, run_ite]
  rw [if_neg hzero]
  simp only [hreplayMemory, run_bind, hallocated, hverify, run_pure]
  exact ⟨_, rfl, rfl, rfl, rfl⟩

end reopen

end FrontierDirectorate
