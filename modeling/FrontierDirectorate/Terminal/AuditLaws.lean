import Mathlib
import FrontierDirectorate.Core.ReplayOpenLaws
import FrontierDirectorate.Lib.Ranks
import FrontierDirectorate.Terminal.Audit

/-!
# The attempts of a replay

The audits of an opened replay mark attempts in increasing order and its records
are the attempts between them. The inspector and the log both find the entry of an
attempt, each in its own way.
-/
namespace FrontierDirectorate

/-- The position of a rejected attempt. -/
def ReplayAudit.position (audit : ReplayAudit) : Nat := audit.attemptIndex.toNat

section opened

variable {world : World}

/-- The audits of a transcript stand in the order of their attempts. -/
theorem transcript_increasing (hvalid : world.Valid) (index : Nat) (decisions : List JointDecision)
    (hbound : index + decisions.length ≤ 18446744073709551616) :
    Ranks.Increasing ReplayAudit.position (transcript world index decisions).audits := by
  induction decisions generalizing world index with
  | nil => exact List.Pairwise.nil
  | cons decision rest ih =>
      rw [List.length_cons] at hbound
      cases h : stepRefusal world decision with
      | some failure =>
          rw [transcript_of_refused hvalid h]
          refine List.pairwise_cons.mpr ⟨?_, ih hvalid (index + 1) (by omega)⟩
          intro audit haudit
          have hindex : (UInt64.ofNat index).toNat = index :=
            UInt64.toNat_ofNat_of_lt' (by rw [UInt64.size]; omega)
          have hlater := transcript_audit_index hvalid (index + 1) rest (by omega) audit haudit
          change (UInt64.ofNat index).toNat < audit.attemptIndex.toNat
          omega
      | none =>
          rw [transcript_of_accepted hvalid h]
          exact ih (valid_stepWorld hvalid) (index + 1) (by omega)

/-- What holds of the entries of an opened replay, however far it has been advanced. -/
structure Replay.Ordered (replay : Replay) : Prop where
  increasing : Ranks.Increasing ReplayAudit.position replay.audits
  below : ∀ audit ∈ replay.audits,
    audit.position < replay.records.length + replay.audits.length
  bound : replay.records.length + replay.audits.length ≤ 18446744073709551615
  narrow : replay.audits.length ≤ 4294967295

theorem Opened.ordered {context : FdContext} {bytes : List UInt8} {replay : Replay}
    {sections : Sections} {counts : ReplayCounts}
    (h : Opened context bytes replay world sections counts) : replay.Ordered := by
  have htranscribed := h.transcribed
  have hvalid := h.loads.sound.1.valid
  have hbound := htranscribed.bound
  have hlength : 0 + replay.decisions.length ≤ 18446744073709551616 := by
    rw [htranscribed.length]
    omega
  obtain ⟨-, hperm⟩ := transcript_positions hvalid 0 replay.decisions hlength
  rw [htranscribed.audits, htranscribed.length] at hperm
  have hwide : (0 + counts.audits) * 328 ≤ ((sections 4).payload.drop 4).length := by
    rw [List.length_drop, h.counted.audits]
    omega
  have hcount : replay.audits.length = counts.audits := (decodeAudits_eq_ok hwide h.audits).1
  constructor
  case increasing =>
    rw [← htranscribed.audits]
    exact transcript_increasing hvalid 0 replay.decisions hlength
  case below =>
    intro audit haudit
    have hmem := hperm.subset (List.mem_append_right _
      (List.mem_map_of_mem (f := fun a : ReplayAudit => a.attemptIndex.toNat) haudit))
    have hlt := (List.mem_range'_1.mp hmem).2
    rwa [Nat.zero_add] at hlt
  case bound => exact hbound
  case narrow =>
    have hword := (fdLoadU32Le (sections 4).payload).toNat_lt
    rw [hcount, ← h.counted.auditCount]
    omega

end opened

namespace Terminal
open Checks Ranks

section entries

variable {replay : Replay}

end entries

section queries

variable {replay : Replay}

/-- What `fd_replay_get_info` says of a replay. -/
def replayInfo (replay : Replay) : ReplayInfo where
  decisionCount := UInt64.ofNat replay.records.length
  cursor := UInt64.ofNat replay.cursor
  tickZeroSaveBytes := UInt64.ofNat replay.tickZeroSave.length
  checkpointCount := UInt32.ofNat replay.checkpointCount
  auditCount := UInt32.ofNat replay.audits.length
  tickZeroStateSha256 := replay.tickZeroHash

theorem audit_eq {index : UInt32} {audit : ReplayAudit}
    (h : replay.audits[index.toNat]? = some audit) :
    ReplayHandle.audit (some replay) index = .ok (auditView audit) := by
  unfold ReplayHandle.audit fdReplayGetAudit
  rw [requireOutput_initialized]
  simp only [ReplayHandle.native, ok_bind, h]

theorem record_eq {index : UInt64} {record : ReplayRecord}
    (h : replay.records[index.toNat]? = some record) :
    ReplayHandle.record (some replay) index = .ok (recordView index record) := by
  unfold ReplayHandle.record fdReplayGetRecord
  rw [requireOutput_initialized]
  simp only [ReplayHandle.native, ok_bind, h]

end queries

section inspector

variable {replay : Replay}

end inspector

section messageLog

variable {replay : Replay}

end messageLog

end Terminal

end FrontierDirectorate
