import Mathlib
import FrontierDirectorate.Core.Preimage
import FrontierDirectorate.Core.ReplayRoundTrip

/-!
# Rebuilding an opened replay

The attempts of an accepted file are within the limits of the builder, unless one
of its checkpoints collides with the state the rules lead to.
-/
namespace FrontierDirectorate
open Accounting ByteCodec Checks

/-- A save inside the bytes that loads to another state than `world` with the same digest. -/
def CollidingSave (context : FdContext) (bytes : List UInt8) (world : World) : Prop :=
  ∃ saved v, saved <:+: bytes ∧ LoadsTo context saved v ∧ stateStream v ≠ stateStream world ∧
    fdSha256 (stateStream v) = fdSha256 (stateStream world)

section checkpoints

variable {context : FdContext} {origin last v w : World} {records : List ReplayRecord}

theorem SameState.saveSize_eq (h : SameState v w) : saveSize v = saveSize w := by
  have htiles : v.tileCount = w.tileCount := congrArg List.length h.tiles
  rw [saveSize, saveSize, contentLength, contentLength, mapLength, mapLength,
    fdEntitySectionLength, fdEntitySectionLength, h.packs, h.entities, htiles]

/-- Checkpoints that are accepted are as long as those of the writer, or one of them collides. -/
theorem checkCheckpoints_long (hrun : PassRun origin records last) (hsound : origin.Sound context)
    {n j : Nat} (hn : (j + n) * 1024 ≤ records.length) {rest : List UInt8} {s : Ledger}
    (h : (checkCheckpoints context records n j rest s).1 = .ok ()) :
    (∃ k ≤ records.length, CollidingSave context rest (origin.after k)) ∨
      n * (16 + saveSize origin) ≤ rest.length := by
  induction n generalizing j rest s with
  | zero =>
      right
      rw [Nat.zero_mul]
      exact Nat.zero_le _
  | succ n ih =>
      obtain ⟨k, hk⟩ : ∃ k, k = (j + 1) * 1024 := ⟨_, rfl⟩
      have hle : k ≤ records.length := by omega
      rw [checkCheckpoints] at h
      simp only [run_ite] at h
      split at h
      · cases h
      · next hlong =>
          split at h
          · cases h
          · next hoffset =>
              simp only [not_or, not_not, not_lt] at hoffset
              obtain ⟨hindex, hfits⟩ := hoffset
              obtain ⟨size, hsize⟩ : ∃ size, size = (fdLoadU64Le (rest.drop 8)).toNat := ⟨_, rfl⟩
              rw [hindex, ← hsize] at h
              rw [← hsize] at hfits
              simp only [run_bind] at h
              cases hload : (fdWorldLoad context ((rest.drop 16).take size) s).1 with
              | error failure =>
                  simp only [hload, run_pure] at h
                  cases h
              | ok v =>
                  simp only [hload, run_bind, run_ite] at h
                  split at h
                  · cases h
                  · next hstate =>
                      simp only [not_or, not_not] at hstate
                      have hloads := fdWorldLoad_loadsTo hload
                      have hinfix : (rest.drop 16).take size <:+: rest :=
                        (List.take_prefix size _).isInfix.trans (List.drop_suffix 16 rest).isInfix
                      have hlater : (j + 1 + n) * 1024 ≤ records.length :=
                        (congrArg (· * 1024) (Nat.add_right_comm j 1 n)).trans_le hn
                      have hpost : (origin.after k).stateSha256 = v.stateSha256 := by
                        have hrecord := (hrun.record (show k - 1 < records.length by omega)).1
                        have hstep : origin.after k = stepWorld (origin.after (k - 1)) := by
                          rw [← World.after_succ, Nat.sub_add_cancel (by omega)]
                        have hsame := hstate.2
                        rw [show (j + 1) * fdReplayCheckpointInterval = k from hk.symm, hrecord] at hsame
                        rw [hstep]
                        exact Option.some.inj hsame
                      have hworld := (hrun.take hle).sound hsound
                      by_cases hstream : stateStream v = stateStream (origin.after k)
                      · have hsame := (stateStream_inj hloads.sound.1.bounded hworld.bounded).mp hstream
                        have hsaved := hsame.saveSize_eq
                        rw [saveSize_after] at hsaved
                        have hlength := hloads.saveSize_le.1
                        rw [List.length_take, Nat.min_eq_left hfits] at hlength
                        have hdrop : ((rest.drop 16).drop size).length =
                            rest.length - 16 - size := by
                          rw [List.length_drop, List.length_drop]
                        rw [List.length_drop] at hfits
                        rcases ih hlater h with ⟨k', hk', saved, v', hinside, hcollides⟩ | hrest
                        · left
                          refine ⟨k', hk', saved, v', ?_, hcollides⟩
                          exact hinside.trans ((List.drop_suffix size _).isInfix.trans
                            (List.drop_suffix 16 rest).isInfix)
                        · right
                          rw [hdrop] at hrest
                          rw [Nat.succ_mul]
                          omega
                      · left
                        refine ⟨k, hle, _, v, hinfix, hloads, hstream, ?_⟩
                        rw [← stateDigest_eq, ← stateDigest_eq, ← hworld.stateHash,
                          ← hloads.sound.1.stateHash, hpost]

end checkpoints

section rebuild

variable {context : FdContext} {bytes : List UInt8} {replay : Replay} {world : World}
  {sections : Sections} {counts : ReplayCounts} {parsed : Nat}

theorem openSections_eq_ok (h : openSections context bytes = .ok (sections, parsed)) :
    bytes.length ≤ context.maxFileBytes.toNat ∧ 88 ≤ bytes.length ∧
      fdParseReplaySections bytes = .ok (sections, parsed) := by
  unfold openSections at h
  obtain ⟨hmax, h⟩ := failIf_bind_eq_ok.mp h
  obtain ⟨-, h⟩ := failIf_bind_eq_ok.mp h
  obtain ⟨hshort, h⟩ := failIf_bind_eq_ok.mp h
  obtain ⟨-, h⟩ := failIf_bind_eq_ok.mp h
  exact ⟨not_lt.mp hmax, not_lt.mp (not_or.mp hshort).1, h⟩

theorem openManifest_long (h : openManifest sections parsed = .ok counts) :
    28 ≤ (sections 1).payload.length := by
  unfold openManifest at h
  obtain ⟨hmanifest, -⟩ := failIf_bind_eq_ok.mp h
  exact not_lt.mp (not_or.mp hmanifest).1

/-- A payload of the table stands in the file. -/
theorem payload_infix {tag : UInt16} (hpos : 0 < tag) (hle : tag ≤ 5)
    (h : fdParseReplaySections bytes = .ok (sections, parsed)) :
    (sections tag.toNat).payload <:+: bytes := by
  obtain ⟨frames, -, hfile, hframes, hresult⟩ := fdParseReplaySections_eq_ok.mp h
  cases hresult
  obtain ⟨f, hf, rfl⟩ := hfile.mandatory tag hpos hle
  have hentry := hfile.loopFrames.entry hf hle
  have hslice : slice bytes 8 (bytes.length - 40) <:+: bytes :=
    (List.take_prefix _ _).isInfix.trans (List.drop_suffix 8 bytes).isInfix
  rw [hframes] at hslice
  obtain ⟨before, behind, rfl⟩ := List.append_of_mem hf
  have hbytes : f.payload <:+: f.bytes :=
    ⟨sectionHeader f.tag f.flags f.payload.length, (fdSha256 f.payload).toList,
      by rw [Frame.bytes, List.append_assoc]⟩
  have hinside : f.bytes <:+: (before ++ f :: behind).flatMap Frame.bytes :=
    ⟨before.flatMap Frame.bytes, behind.flatMap Frame.bytes,
      by rw [List.flatMap_append, List.flatMap_cons, List.append_assoc]⟩
  rw [hentry]
  exact hbytes.trans (hinside.trans hslice)

theorem payload_lengths (h : fdParseReplaySections bytes = .ok (sections, parsed))
    (hshort : 88 ≤ bytes.length) :
    40 + ((48 + (sections 1).payload.length) + ((48 + (sections 2).payload.length) +
      ((48 + (sections 3).payload.length) + ((48 + (sections 4).payload.length) +
        (48 + (sections 5).payload.length))))) ≤ bytes.length := by
  obtain ⟨frames, -, hfile, hframes, hresult⟩ := fdParseReplaySections_eq_ok.mp h
  cases hresult
  have hknown := hfile.known_lengths_le
  have hlength := congrArg List.length hframes
  rw [slice_length] at hlength
  have hrange : List.range' 1 (5 : UInt16).toNat = [1, 2, 3, 4, 5] := by decide
  rw [hrange] at hknown
  simp only [List.map_cons, List.map_nil, List.sum_cons, List.sum_nil, Nat.add_zero] at hknown
  omega

set_option maxRecDepth 2000 in
/-- The attempts of an accepted file can be built again, or a checkpoint of it collides. -/
theorem Opened.buildable (h : Opened context bytes replay world sections counts) :
    Buildable context world replay.decisions ∨
      ∃ k ≤ replay.records.length, CollidingSave context bytes (world.after k) := by
  obtain ⟨parsed, hsections, hmanifest⟩ := h.manifest
  obtain ⟨hmax, hshort, hparse⟩ := openSections_eq_ok hsections
  have hcounted := h.counted
  have htranscribed := h.transcribed
  have hsound := h.loads.sound.1
  have hrun := transcript_passRun hsound.valid 0 replay.decisions
  rw [htranscribed.records] at hrun
  have hrecords : replay.records.length = counts.decisions :=
    (decodeRecords_eq_ok (by rw [List.length_drop, hcounted.records]; omega) h.records).1
  have haudits : replay.audits.length = counts.audits :=
    (decodeAudits_eq_ok (by rw [List.length_drop, hcounted.audits]; omega) h.audits).1
  obtain ⟨s, hcheckpoints⟩ := h.checkpoints
  have hinterval := hcounted.interval
  rcases checkCheckpoints_long hrun hsound (by omega) hcheckpoints with
    ⟨k, hk, saved, v, hinside, hcollides⟩ | hlong
  · right
    have hsection : (sections (5 : UInt16).toNat).payload <:+: bytes :=
      payload_infix (by decide) (by decide) hparse
    exact ⟨k, hk, saved, v,
      hinside.trans ((List.drop_suffix 4 _).isInfix.trans hsection), hcollides⟩
  · left
    have hlengths := payload_lengths hparse hshort
    have hlt := context.maxFileBytes.toNat_lt
    have hsave := h.loads.saveSize_le.1
    have hmanifestLength := openManifest_long hmanifest
    have hauditCount : counts.audits < 4294967296 := by
      rw [← hcounted.auditCount]
      exact UInt32.toNat_lt _
    have hcheckpointCount : counts.checkpoints < 4294967296 := by
      rw [← hcounted.checkpointCount]
      exact UInt32.toNat_lt _
    have hlength := htranscribed.length
    rw [hcounted.records, hcounted.audits] at hlengths
    rw [List.length_drop, hinterval] at hlong
    have hcheckpoints := hcounted.checkpoints
    constructor
    case tickZero => exact h.tickZero
    case count =>
      rw [Nat.le_div_iff_mul_le (by decide)]
      omega
    case clock => omega
    case audits =>
      rw [htranscribed.audits, haudits]
      change counts.audits ≤ 4294967295
      omega
    case checkpoints =>
      rw [htranscribed.records, hrecords, ← hinterval]
      change counts.checkpoints ≤ 4294967295
      omega
    case total =>
      rw [htranscribed.records, htranscribed.audits, hrecords, haudits, replayTotal,
        Nat.add_comm (saveSize world) 16]
      omega

end rebuild

end FrontierDirectorate
