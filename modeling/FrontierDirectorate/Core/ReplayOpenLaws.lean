import Mathlib
import FrontierDirectorate.Core.ReplayEntries
import FrontierDirectorate.Core.SectionFiles

/-!
# What an opened replay is

The checks of `fd_replay_open`, taken apart: an accepted file holds a tick-zero
save, and its two entry arrays are the transcript of its attempts on that world.
-/
namespace FrontierDirectorate
open ByteCodec Checks Accounting

/-- Everything an accepted replay has passed. -/
structure Opened (context : FdContext) (bytes : List UInt8) (replay : Replay) (world : World)
    (sections : Sections) (counts : ReplayCounts) : Prop where
  manifest : ∃ parsed, openSections context bytes = .ok (sections, parsed) ∧
    openManifest sections parsed = .ok counts
  loads : LoadsTo context (sections 2).payload world
  tickZero : world.tick = 0
  records : decodeRecords world.region.foreignFactionIds ((sections 3).payload.drop 8)
    counts.decisions 0 0 world.stateSha256 = .ok replay.records
  audits : decodeAudits counts ((sections 4).payload.drop 4) counts.audits 0 none =
    .ok replay.audits
  merge : mergeReplay world replay.records replay.audits counts.attempts = .ok ()
  checkpoints : ∃ t, (checkCheckpoints context replay.records counts.checkpoints 0
    ((sections 5).payload.drop 4) t).1 = .ok ()
  save : replay.tickZeroSave = (sections 2).payload
  hash : replay.tickZeroHash = world.stateSha256
  cursor : replay.cursor = 0

section inversion

variable {context : FdContext} {bytes : List UInt8} {replay : Replay} {world : World}
  {sections : Sections} {counts : ReplayCounts} {records : List ReplayRecord}
  {audits : List ReplayAudit} {s : Ledger}

theorem verifyReplay_eq_ok
    (h : (verifyReplay context sections counts world s).1 = .ok (records, audits)) :
    decodeRecords world.region.foreignFactionIds ((sections 3).payload.drop 8) counts.decisions 0 0
        world.stateSha256 = .ok records ∧
      decodeAudits counts ((sections 4).payload.drop 4) counts.audits 0 none = .ok audits ∧
      ∃ loaded, LoadsTo context (sections 2).payload loaded ∧
        mergeReplay loaded records audits counts.attempts = .ok () ∧
        ∃ t, (checkCheckpoints context records counts.checkpoints 0
          ((sections 5).payload.drop 4) t).1 = .ok () := by
  unfold verifyReplay at h
  cases hrecords : decodeRecords world.region.foreignFactionIds ((sections 3).payload.drop 8)
      counts.decisions 0 0 world.stateSha256 with
  | error failure =>
      simp only [hrecords, error_bind, run_pure] at h
      cases h
  | ok decoded =>
      cases haudits : decodeAudits counts ((sections 4).payload.drop 4) counts.audits 0 none with
      | error failure =>
          simp only [hrecords, haudits, ok_bind, error_bind, run_pure] at h
          cases h
      | ok rejected =>
          simp only [hrecords, haudits, ok_bind, run_bind] at h
          cases hload : (fdWorldLoad context (sections 2).payload s).1 with
          | error failure =>
              simp only [hload, run_pure] at h
              cases h
          | ok loaded =>
              simp only [hload, run_bind] at h
              cases hmerge : mergeReplay loaded decoded rejected counts.attempts with
              | error failure =>
                  simp only [hmerge, run_pure] at h
                  cases h
              | ok _ =>
                  simp only [hmerge, run_bind, run_pure] at h
                  cases hcheck : (checkCheckpoints context decoded counts.checkpoints 0
                      ((sections 5).payload.drop 4)
                      (fdWorldDestroy loaded (fdWorldLoad context (sections 2).payload s).2).2).1
                    with
                  | error failure =>
                      rw [hcheck] at h
                      cases h
                  | ok _ =>
                      rw [hcheck] at h
                      cases h
                      exact ⟨rfl, rfl, loaded, fdWorldLoad_loadsTo hload, hmerge, _, hcheck⟩

theorem fdReplayOpen_eq_ok (h : (fdReplayOpen context bytes s).1 = .ok replay) :
    ∃ world sections counts, Opened context bytes replay world sections counts := by
  unfold fdReplayOpen at h
  cases hsections : openSections context bytes with
  | error failure =>
      simp only [hsections, error_bind, run_pure] at h
      cases h
  | ok table =>
      obtain ⟨sections, parsed⟩ := table
      cases hmanifest : openManifest sections parsed with
      | error failure =>
          simp only [hsections, hmanifest, ok_bind, error_bind, run_pure] at h
          cases h
      | ok counts =>
          simp only [hsections, hmanifest, ok_bind, run_bind] at h
          cases hload : (fdWorldLoad context (sections 2).payload s).1 with
          | error failure =>
              simp only [hload, run_pure] at h
              cases h
          | ok world =>
              simp only [hload, run_ite] at h
              split at h
              · cases h
              · next htick =>
                  cases hmemory : replayMemory (sections 2).payload.length counts with
                  | none =>
                      simp only [hmemory, run_bind, run_pure] at h
                      cases h
                  | some memory =>
                      simp only [hmemory, run_bind] at h
                      generalize allocateReplay context memory
                        (fdWorldLoad context (sections 2).payload s).2 = allocated at h
                      obtain ⟨result, t⟩ := allocated
                      cases result with
                      | error failure =>
                          simp only [run_bind, run_pure] at h
                          cases h
                      | ok _ =>
                          simp only [run_bind] at h
                          cases hverify : (verifyReplay context sections counts world
                              (fdWorldDestroy world t).2).1 with
                          | error failure =>
                              simp only [hverify, run_bind, run_pure] at h
                              cases h
                          | ok entries =>
                              obtain ⟨records, audits⟩ := entries
                              simp only [hverify, run_bind, run_pure] at h
                              cases h
                              have hworld := fdWorldLoad_loadsTo hload
                              obtain ⟨hrecords, haudits, loaded, hloaded, hmerge, hcheck⟩ :=
                                verifyReplay_eq_ok hverify
                              rw [LoadsTo.unique hloaded hworld] at hmerge
                              exact ⟨world, sections, counts, ⟨parsed, hsections, hmanifest⟩, hworld,
                                not_not.mp htick, hrecords, haudits, hmerge, hcheck, rfl, rfl, rfl⟩

end inversion

section facts

variable {context : FdContext} {bytes : List UInt8} {replay : Replay} {world : World}
  {sections : Sections} {counts : ReplayCounts}

theorem fdU64Mul_eq_some {a b c : Nat} (h : fdU64Mul a b = some c) : c = a * b := by
  unfold fdU64Mul at h
  split at h
  · cases h
  · exact (Option.some.inj h).symm

theorem fdU64Add_eq_some {a b c : Nat} (h : fdU64Add a b = some c) :
    c = a + b ∧ b ≤ 18446744073709551615 - a := by
  unfold fdU64Add at h
  split at h
  · cases h
  · next hle => exact ⟨(Option.some.inj h).symm, not_lt.mp hle⟩

/-- The sections have the lengths and the counts that the manifest announces. -/
structure Counted (sections : Sections) (counts : ReplayCounts) : Prop where
  records : (sections 3).payload.length = 8 + counts.decisions * 228
  recordCount : (fdLoadU64Le (sections 3).payload).toNat = counts.decisions
  audits : (sections 4).payload.length = 4 + counts.audits * 328
  auditCount : (fdLoadU32Le (sections 4).payload).toNat = counts.audits
  checkpoints : 4 ≤ (sections 5).payload.length
  checkpointCount : (fdLoadU32Le (sections 5).payload).toNat = counts.checkpoints
  interval : counts.checkpoints = counts.decisions / 1024
  attempts : counts.attempts ≤ 18446744073709551615

theorem counted_of_consistent (h : countsConsistent sections counts = true) :
    Counted sections counts := by
  unfold countsConsistent at h
  cases hlengths : counts.lengths with
  | none =>
      rw [hlengths] at h
      cases h
  | some lengths =>
      obtain ⟨records, audits, attempts⟩ := lengths
      simp only [hlengths, Bool.and_eq_true, decide_eq_true_eq] at h
      obtain ⟨⟨⟨⟨⟨⟨⟨hrecords, hrecordCount⟩, haudits⟩, hauditCount⟩, hshort⟩, hcheckpoints⟩, -⟩,
        hinterval⟩ := h
      unfold ReplayCounts.lengths at hlengths
      obtain ⟨r, hr, hlengths⟩ := Option.bind_eq_some_iff.mp hlengths
      obtain ⟨r', hr', hlengths⟩ := Option.bind_eq_some_iff.mp hlengths
      obtain ⟨a, ha, hlengths⟩ := Option.bind_eq_some_iff.mp hlengths
      obtain ⟨a', ha', hlengths⟩ := Option.bind_eq_some_iff.mp hlengths
      obtain ⟨t, ht, hlengths⟩ := Option.bind_eq_some_iff.mp hlengths
      cases hlengths
      obtain ⟨rfl, -⟩ := fdU64Add_eq_some hr'
      obtain ⟨rfl, -⟩ := fdU64Add_eq_some ha'
      obtain ⟨rfl, hsum⟩ := fdU64Add_eq_some ht
      rw [fdU64Mul_eq_some hr] at hrecords
      rw [fdU64Mul_eq_some ha] at haudits
      have hdecisions : counts.decisions < 18446744073709551616 := by
        rw [← hrecordCount]
        exact UInt64.toNat_lt _
      refine ⟨hrecords.trans (Nat.add_comm _ _), hrecordCount, haudits.trans (Nat.add_comm _ _),
        hauditCount, hshort, hcheckpoints, hinterval, ?_⟩
      unfold ReplayCounts.attempts
      omega

theorem counted_of_manifest {parsed : Nat} (h : openManifest sections parsed = .ok counts) :
    Counted sections counts := by
  unfold openManifest at h
  obtain ⟨-, h⟩ := failIf_bind_eq_ok.mp h
  obtain ⟨hcounts, h⟩ := failIf_bind_eq_ok.mp h
  cases h
  exact counted_of_consistent (not_not.mp hcounts)

theorem Opened.counted (h : Opened context bytes replay world sections counts) :
    Counted sections counts := by
  obtain ⟨parsed, -, hmanifest⟩ := h.manifest
  exact counted_of_manifest hmanifest

/-- The attempts that an opened replay stands for. -/
def Replay.decisions (replay : Replay) : List JointDecision :=
  mergeDecisions (replay.records.length + replay.audits.length) 0 replay.records replay.audits

/-- The entries of an opened replay are the transcript of its attempts, and its record and audit
sections are their wire form. -/
structure Transcribed (replay : Replay) (world : World) (sections : Sections) : Prop where
  length : replay.decisions.length = replay.records.length + replay.audits.length
  bound : replay.records.length + replay.audits.length ≤ 18446744073709551615
  records : (transcript world 0 replay.decisions).records = replay.records
  audits : (transcript world 0 replay.decisions).audits = replay.audits
  recordPayload : (sections 3).payload =
    fdStoreU64Le (UInt64.ofNat replay.records.length) ++ replay.records.flatMap fdEncodeReplayRecord
  auditPayload : (sections 4).payload =
    fdStoreU32Le (UInt32.ofNat replay.audits.length) ++ replay.audits.flatMap ReplayAudit.encode

theorem mergeReplay_eq_ok {records : List ReplayRecord} {audits : List ReplayAudit} {n : Nat}
    (h : mergeReplay world records audits n = .ok ()) :
    ∃ last, forEach (List.range' 0 n) mergeAttempt ⟨world, records, audits⟩ = .ok ⟨last, [], []⟩ := by
  unfold mergeReplay at h
  obtain ⟨⟨last, records', audits'⟩, hloop, hrest⟩ := bind_eq_ok.mp h
  have hempty := failIf_eq_ok.mp hrest
  simp only [not_or, not_not] at hempty
  obtain ⟨rfl, rfl⟩ := hempty
  rw [← List.range_eq_range']
  exact ⟨last, hloop⟩

set_option maxRecDepth 2000 in
theorem Opened.transcribed (h : Opened context bytes replay world sections counts) :
    Transcribed replay world sections := by
  have hcounted := h.counted
  have hsound := h.loads.sound.1
  have hlong : (0 + counts.decisions) * 228 ≤ ((sections 3).payload.drop 8).length := by
    rw [List.length_drop, hcounted.records]
    omega
  have hwide : (0 + counts.audits) * 328 ≤ ((sections 4).payload.drop 4).length := by
    rw [List.length_drop, hcounted.audits]
    omega
  obtain ⟨hrecords, hrecordBytes, hcanonical⟩ := decodeRecords_eq_ok hlong h.records
  obtain ⟨haudits, hauditBytes, hchronological⟩ := decodeAudits_eq_ok hwide h.audits
  obtain ⟨last, hmerge⟩ := mergeReplay_eq_ok h.merge
  have hbound := hcounted.attempts
  have hclock : world.tick.toNat = (0 - 0) * 24 := by rw [h.tickZero]; rfl
  obtain ⟨hlength, -, hsame, hsameAudits⟩ := transcript_of_merge counts.attempts 0 0 hsound.valid
    (Nat.le_refl 0) hclock (by omega) hcanonical hchronological hmerge
  have hattempts : replay.records.length + replay.audits.length = counts.attempts := by
    rw [hrecords, haudits]
    rfl
  have hdecisions : replay.decisions =
      mergeDecisions counts.attempts 0 replay.records replay.audits := by
    rw [Replay.decisions, hattempts]
  constructor
  case length => rw [hdecisions, hlength, hattempts]
  case bound => rw [hattempts]; exact hbound
  case records => rw [hdecisions, hsame]
  case audits => rw [hdecisions, hsameAudits]
  case recordPayload =>
    have hcount : UInt64.ofNat replay.records.length = fdLoadU64Le (sections 3).payload := by
      rw [hrecords, ← hcounted.recordCount, UInt64.ofNat_toNat]
    have hhead := fdStoreU64Le_load_drop (sections 3).payload 0 (by rw [hcounted.records]; omega)
    have hbody : slice ((sections 3).payload.drop 8) (0 * 228) (counts.decisions * 228) =
        (sections 3).payload.drop 8 := by
      rw [Nat.zero_mul]
      exact slice_all (by rw [List.length_drop, hcounted.records, Nat.add_sub_cancel_left])
    rw [List.drop_zero] at hhead
    rw [hcount, hrecordBytes, hbody, hhead, slice_append_rest]
  case auditPayload =>
    have hcount : UInt32.ofNat replay.audits.length = fdLoadU32Le (sections 4).payload := by
      rw [haudits, ← hcounted.auditCount, UInt32.ofNat_toNat]
    have hhead := fdStoreU32Le_load_drop (sections 4).payload 0 (by rw [hcounted.audits]; omega)
    have hbody : slice ((sections 4).payload.drop 4) (0 * 328) (counts.audits * 328) =
        (sections 4).payload.drop 4 := by
      rw [Nat.zero_mul]
      exact slice_all (by rw [List.length_drop, hcounted.audits, Nat.add_sub_cancel_left])
    rw [List.drop_zero] at hhead
    rw [hcount, hauditBytes, hbody, hhead, slice_append_rest]

end facts

end FrontierDirectorate
