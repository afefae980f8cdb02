import Mathlib
import FrontierDirectorate.Core.Transcript

/-!
# The entries of a replay file

The record and audit arrays of a replay, decoded: what the decoders accept is
exactly the concatenated wire form of what they return, and the arrays of a
transcript are accepted.
-/
namespace FrontierDirectorate
open ByteCodec Checks

section records

variable {world last : World} {foreign : List.Vector FdEntityId 2} {p : List UInt8}

theorem readReplayRecord_staged (q : List UInt8) :
    (readReplayRecord q).decision.staged = (readReplayRecord q).decision := rfl

/-- An accepted record array is the wire form of its records. -/
theorem decodeRecords_eq_ok {n index : Nat} {tick : UInt64} {hash : Digest}
    {records : List ReplayRecord} (hlength : (index + n) * 228 ≤ p.length)
    (h : decodeRecords foreign p n index tick hash = .ok records) :
    records.length = n ∧ records.flatMap fdEncodeReplayRecord = slice p (index * 228) (n * 228) ∧
      ∀ record ∈ records, record.Canonical := by
  induction n generalizing index tick hash records with
  | zero =>
      cases h
      exact ⟨rfl, by simp [slice], fun _ h => by cases h⟩
  | succ n ih =>
      rw [decodeRecords] at h
      obtain ⟨record, hrecord, h⟩ := bind_eq_ok.mp h
      obtain ⟨-, h⟩ := failIf_bind_eq_ok.mp h
      obtain ⟨-, h⟩ := failIf_bind_eq_ok.mp h
      obtain ⟨later, hlater, h⟩ := bind_eq_ok.mp h
      cases h
      obtain ⟨hcount, hbytes, hcanonical⟩ := ih (by omega) hlater
      obtain ⟨hchecks, hread⟩ := failIf_bind_eq_ok.mp hrecord
      simp only [not_or, not_not] at hchecks
      cases hread
      have hencode : fdEncodeReplayRecord (readReplayRecord (p.drop (index * 228))) =
          slice p (index * 228) 228 :=
        fdEncodeReplayRecord_read _ (by rw [List.length_drop]; omega)
      refine ⟨congrArg (· + 1) hcount, ?_, ?_⟩
      · have hsum : (n + 1) * 228 = 228 + n * 228 := by omega
        rw [List.flatMap_cons, hbytes, hsum]
        change fdEncodeReplayRecord (readReplayRecord (p.drop (index * 228))) ++ _ = _
        rw [hencode, slice_append_slice p (by omega)]
      · rw [List.forall_mem_cons]
        exact ⟨⟨readReplayRecord_staged _, hchecks.2.2.2.1⟩, hcanonical⟩

/-- The records of a run of steps are accepted. -/
theorem decodeRecords_passRun {records : List ReplayRecord} (hrun : PassRun world records last)
    (hforeign : foreign = world.region.foreignFactionIds)
    (hphase : world.tick % fdOperationalTicks = 0) {index : Nat}
    (hlate : 0 < index → fdOperationalTicks ≤ world.tick) {rest : List UInt8}
    (hp : p.drop (index * 228) = records.flatMap fdEncodeReplayRecord ++ rest) :
    decodeRecords foreign p records.length index world.tick world.stateSha256 = .ok records := by
  induction hrun generalizing index with
  | nil world => rfl
  | @cons world last records clock hrest ih =>
      rw [List.flatMap_cons, List.append_assoc] at hp
      have hread : readReplayRecord (p.drop (index * fdReplayRecordWireSize)) = world.passRecord := by
        rw [hp, readReplayRecord_encode]
        rfl
      have hdecode : fdDecodeReplayRecord (p.drop (index * fdReplayRecordWireSize)) index =
          .ok world.passRecord := by
        rw [fdDecodeReplayRecord, hread]
        refine failIf_bind_of_not ?_
        simp only [not_or, not_not, not_and, UInt64.not_lt]
        exact ⟨rfl, rfl, rfl, rfl, rfl, clock, hphase, rfl, hlate⟩
      have hnext := stepWorld_phase hphase clock
      have hlast : 0 < index + 1 → fdOperationalTicks ≤ (stepWorld world).tick := by
        intro _
        rw [stepWorld_tick, UInt64.le_iff_toNat_le, tick_add clock]
        exact Nat.le_add_left _ _
      have hdrop : p.drop ((index + 1) * 228) = records.flatMap fdEncodeReplayRecord ++ rest := by
        have hsum : (index + 1) * 228 = index * 228 + 228 := by omega
        rw [hsum, ← List.drop_drop, hp]
        exact List.drop_left' (fdEncodeReplayRecord_length _)
      have hlater : decodeRecords foreign p records.length (index + 1) (stepWorld world).tick
          (stepWorld world).stateSha256 = .ok records := ih hforeign hnext hlast hdrop
      rw [List.length_cons, decodeRecords, hdecode, ok_bind]
      rw [failIf_bind_of_not, failIf_bind_of_not]
      · change decodeRecords foreign p records.length (index + 1) (stepWorld world).tick
          (stepWorld world).stateSha256 >>= _ = _
        rw [hlater]
        rfl
      · rw [not_not]
        rfl
      · simp only [not_or, not_not]
        rw [hforeign]
        exact ⟨rfl, rfl, rfl, rfl, rfl, rfl, rfl, rfl⟩

end records

section audits

variable {world : World} {p : List UInt8}

set_option maxRecDepth 2000 in
/-- An accepted audit array is the wire form of its audits. -/
theorem decodeAudits_eq_ok {counts : ReplayCounts} {n index : Nat} {previous : Option UInt64}
    {audits : List ReplayAudit} (hlength : (index + n) * 328 ≤ p.length)
    (h : decodeAudits counts p n index previous = .ok audits) :
    audits.length = n ∧ audits.flatMap ReplayAudit.encode = slice p (index * 328) (n * 328) ∧
      Chronological index audits := by
  induction n generalizing index previous audits with
  | zero =>
      cases h
      exact ⟨rfl, by simp [slice], trivial⟩
  | succ n ih =>
      have hsum : (n + 1) * 328 = 328 + n * 328 := by omega
      have hnext : (index + 1) * 328 = index * 328 + 328 := by omega
      rw [decodeAudits] at h
      obtain ⟨audit, haudit, h⟩ := bind_eq_ok.mp h
      obtain ⟨-, h⟩ := failIf_bind_eq_ok.mp h
      obtain ⟨hclock, h⟩ := failIf_bind_eq_ok.mp h
      obtain ⟨later, hlater, h⟩ := bind_eq_ok.mp h
      cases h
      simp only [not_or, not_not] at hclock
      obtain ⟨hcount, hbytes, hchronological⟩ := ih (by omega) hlater
      have hlong : 328 ≤ (p.drop (index * 328)).length := by
        rw [List.length_drop]
        omega
      have hencode : audit.encode = slice p (index * 328) 328 := (fdDecodeAudit_eq_ok hlong haudit).2
      refine ⟨congrArg (· + 1) hcount, ?_, hclock.2.2, hchronological⟩
      rw [List.flatMap_cons, hbytes, hsum, hencode, slice_append_slice p hnext]

/-- The audit of a refused attempt is one the decoder takes. -/
theorem auditOf_wellFormed {decision : JointDecision} {failure : Fail}
    (h : stepRefusal world decision = some failure) {index total : Nat} (hindex : index < total)
    (htotal : total ≤ 18446744073709551616) (htick : world.tick % fdOperationalTicks = 0)
    {previous : Option UInt64} (hprevious : ∀ last ∈ previous, last.toNat < index) :
    (auditOf (UInt64.ofNat index) world.tick decision failure).WellFormed total previous := by
  have haudit := stepRefusal_auditable h
  have hnat : (UInt64.ofNat index).toNat = index :=
    UInt64.toNat_ofNat_of_lt' (by rw [UInt64.size]; omega)
  have hmessage := haudit.diagMessage_eq
  constructor
  case index =>
    change (UInt64.ofNat index).toNat < total
    omega
  case order =>
    intro horder
    obtain ⟨last, hlast, hle⟩ := (Option.any_eq_true _ _).mp horder
    have hlt := hprevious last hlast
    have hge := UInt64.le_iff_toNat_le.mp (of_decide_eq_true hle)
    change (UInt64.ofNat index).toNat ≤ _ at hge
    omega
  case tick => exact htick
  case auditable => exact haudit.code
  case field => exact haudit.field
  case short =>
    change (diagMessage failure).length < _
    rw [hmessage]
    exact haudit.short
  case text =>
    change (diagMessage failure).all printableByte = true
    rw [hmessage]
    exact haudit.text

/-- The audits of a transcript are accepted. `first` of the attempts before `index` were rejected. -/
theorem decodeAudits_transcript {counts : ReplayCounts} (hvalid : world.Valid) (index first : Nat)
    (decisions : List JointDecision) (hfirst : first ≤ index)
    (hphase : world.tick % fdOperationalTicks = 0)
    (hclock : world.tick.toNat = (index - first) * 24)
    (hattempts : counts.attempts = index + decisions.length)
    (hbound : index + decisions.length ≤ 18446744073709551616)
    (hdecisions : counts.decisions =
      index - first + (transcript world index decisions).records.length)
    {previous : Option UInt64} (hprevious : ∀ last ∈ previous, last.toNat < index)
    {rest : List UInt8} (hp : p.drop (first * 328) =
      (transcript world index decisions).audits.flatMap ReplayAudit.encode ++ rest) :
    decodeAudits counts p (transcript world index decisions).audits.length first previous =
      .ok (transcript world index decisions).audits := by
  induction decisions generalizing world index first previous with
  | nil => rfl
  | cons decision later ih =>
      rw [List.length_cons] at hattempts hbound
      cases h : stepRefusal world decision with
      | some failure =>
          rw [transcript_of_refused hvalid h] at hp hdecisions ⊢
          simp only [Transcript.reject, List.flatMap_cons, List.append_assoc] at hp hdecisions ⊢
          have hwell := auditOf_wellFormed h (by omega : index < counts.attempts) (by omega) hphase
            hprevious
          have hdecode := fdDecodeAudit_encode hwell ((transcript world (index + 1) later).audits.flatMap
            ReplayAudit.encode ++ rest)
          have hnat : (UInt64.ofNat index).toNat = index :=
            UInt64.toNat_ofNat_of_lt' (by rw [UInt64.size]; omega)
          have hdrop : p.drop ((first + 1) * 328) =
              (transcript world (index + 1) later).audits.flatMap ReplayAudit.encode ++ rest := by
            have hsum : (first + 1) * 328 = first * 328 + 328 := by omega
            rw [hsum, ← List.drop_drop, hp]
            exact List.drop_left' (ReplayAudit.encode_length hwell.short)
          have hlast : ∀ last ∈ some (UInt64.ofNat index), last.toNat < index + 1 := by
            intro last hlast
            cases hlast
            omega
          have hlater := ih hvalid (index + 1) (first + 1) (by omega) hphase
            (by rw [hclock]; congr 1; omega) (by omega) (by omega) (by omega) hlast hdrop
          rw [List.length_cons, decodeAudits]
          rw [show fdReplayAuditWireSize = 328 from rfl, hp, hdecode, ok_bind]
          rw [failIf_bind_of_not, failIf_bind_of_not]
          · change decodeAudits counts p _ (first + 1) (some (UInt64.ofNat index)) >>= _ = _
            rw [hlater]
            rfl
          · have hsmall : world.tick.toNat < 18446744073709551616 := world.tick.toNat_lt
            have haccepted : (UInt64.ofNat index).toNat - first = index - first := by rw [hnat]
            change ¬ (counts.decisions < (UInt64.ofNat index).toNat - first ∨
              18446744073709551615 / 24 < (UInt64.ofNat index).toNat - first ∨
              world.tick.toNat ≠ ((UInt64.ofNat index).toNat - first) * 24)
            rw [haccepted]
            omega
          · change ¬ (UInt64.ofNat index).toNat < first
            omega
      | none =>
          have haccepts := (stepRefusal_eq_none_iff hvalid).mp h
          have hnext : (stepWorld world).tick.toNat = world.tick.toNat + 24 :=
            tick_add haccepts.clock
          rw [transcript_of_accepted hvalid h] at hp hdecisions ⊢
          simp only [Transcript.accept, List.length_cons] at hp hdecisions ⊢
          exact ih (valid_stepWorld hvalid) (index + 1) first (by omega)
            (stepWorld_phase hphase haccepts.clock) (by omega) (by omega) (by omega) (by omega)
            (fun last hlast => (hprevious last hlast).trans (Nat.lt_succ_self index)) hp

end audits

end FrontierDirectorate
