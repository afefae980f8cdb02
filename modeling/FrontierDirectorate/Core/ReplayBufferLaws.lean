import Mathlib
import FrontierDirectorate.Core.ReplayBuffer
import FrontierDirectorate.Core.ReplayBuildLaws

/-!
# The replay that stands in memory

The stores of each encoder are one store of the wire form, the cursors of the second
simulation stay in their regions, and the block ends up with the bytes of the pure
builder.
-/
namespace FrontierDirectorate
open Accounting ByteCodec CheckedMemory Checks

section encoders

variable (position : Nat)

theorem storeParameters_eq (parameters : List.Vector UInt32 4) :
    storeParameters position parameters =
      storeAt position (parametersCodec.encode parameters) := by
  obtain ⟨values, hvalues⟩ := parameters
  match values, hvalues with
  | [a, b, c, d], hvalues =>
      have hencode : parametersCodec.encode ⟨[a, b, c, d], hvalues⟩ =
          fdStoreU32Le a ++ (fdStoreU32Le b ++ (fdStoreU32Le c ++ (fdStoreU32Le d ++ []))) := rfl
      have hloop : storeParameters position ⟨[a, b, c, d], hvalues⟩ =
          (storeAt (position + 0 * 4) (fdStoreU32Le a) >>= fun _ =>
            storeAt (position + 1 * 4) (fdStoreU32Le b) >>= fun _ =>
              storeAt (position + 2 * 4) (fdStoreU32Le c) >>= fun _ =>
                storeAt (position + 3 * 4) (fdStoreU32Le d) >>= fun _ => pure ()) := rfl
      rw [hencode, hloop, List.append_nil]
      simp only [Nat.zero_mul, Nat.add_zero]
      rw [bind_pure_unit, storeAt_storeAt (by rw [fdStoreU32Le_length]),
        storeAt_storeAt (by rw [fdStoreU32Le_length]),
        storeAt_storeAt (by rw [fdStoreU32Le_length])]

theorem fdReplayWriteSectionHeader_eq (tag : UInt16) (length : Nat) :
    fdReplayWriteSectionHeader position tag length =
      storeAt position (fdBeginSection tag length) := by
  unfold fdReplayWriteSectionHeader
  simp (disch := simp -implicitDefEqProofs [Nat.add_assoc]) only [storeAt_storeAt]
  rfl

theorem storeRecordSeat_eq (seat : SeatDecision) :
    storeRecordSeat position seat = storeAt position (encodeRecordSeat seat) := by
  unfold storeRecordSeat
  simp (disch := simp -implicitDefEqProofs [Nat.add_assoc]) only [storeParameters_eq, storeAt_storeAt,
    encodeRecordSeat]

theorem storeSeatWire_eq (seat : SeatDecision) :
    storeSeatWire position seat = storeAt position (encodeSeatWire seat) := by
  unfold storeSeatWire
  simp (disch := simp -implicitDefEqProofs [Nat.add_assoc]) only [storeParameters_eq, storeAt_storeAt,
    encodeSeatWire]

theorem storeReplayRecord_eq (record : ReplayRecord) :
    storeReplayRecord position record = storeAt position (fdEncodeReplayRecord record) := by
  unfold storeReplayRecord
  simp (disch := simp -implicitDefEqProofs [Nat.add_assoc]) only [storeRecordSeat_eq, storeAt_storeAt,
    fdEncodeReplayRecord, encodeRecordHead, List.append_assoc]

theorem storeJointWire_eq (decision : JointDecision) :
    storeJointWire position decision = storeAt position (fdEncodeJointWire decision) := by
  unfold storeJointWire
  simp (disch := simp -implicitDefEqProofs [Nat.add_assoc]) only [storeSeatWire_eq, storeAt_storeAt,
    fdEncodeJointWire, encodeJointHead, List.append_assoc]

/-- The message array is zeroed first and the message then written over its front. -/
theorem storeAudit_eq (attemptIndex tick : UInt64) (decision : JointDecision) (diagnostic : Fail) :
    storeAudit position attemptIndex tick decision diagnostic =
      storeAt position (fdEncodeAudit attemptIndex tick decision diagnostic) := by
  have hshort : (diagMessage diagnostic).length ≤ (List.replicate 160 (0 : UInt8)).length := by
    rw [diagMessage, List.length_take, List.length_replicate, show fdDiagMessageBytes = 160 from rfl]
    omega
  have hzeros : (List.replicate 160 (0 : UInt8)).drop (diagMessage diagnostic).length =
      List.replicate (fdDiagMessageBytes - (diagMessage diagnostic).length) 0 :=
    List.drop_replicate
  unfold storeAudit
  simp only [storeAt_over hshort, hzeros]
  simp (disch := simp -implicitDefEqProofs [Nat.add_assoc]) only [storeJointWire_eq, storeAt_storeAt,
    fdEncodeAudit, auditOf, ReplayAudit.encode]

end encoders

section saving

variable {context : FdContext} {world : World} {bytes : List UInt8}

/-- A save that fits its area is written there, and nothing else changes. -/
theorem turns_saveAt {parts : List (List UInt8)} {done room : List UInt8} {position length : Nat}
    (i : Nat) (hworld : world.Bounded) (hsave : fdWorldSave context world length = .ok bytes)
    (hlength : bytes.length = length) (hold : parts[i]? = some (done ++ room))
    (hroom : length ≤ room.length) (hposition : position = offset parts i + done.length) :
    Turns (saveAt context world position length) (.ok (), length) parts
      (parts.set i ((done ++ bytes) ++ room.drop length)) := by
  have hfits : (room.take length).length = length := by
    rw [List.length_take]
    omega
  have hinto : fdWorldSaveInto context world (room.take length) length = _ :=
    fdWorldSaveInto_eq hfits.ge hworld
  rw [hsave] at hinto
  have hrest : (room.take length).drop length = [] := by rw [List.drop_eq_nil_iff, hfits]
  simp only [hlength, hrest, List.append_nil] at hinto
  refine turns_callAt i hold hroom hposition ?_ hlength
  rw [hinto]
  rfl

end saving

section loop

variable {context : FdContext} {saveSize : Nat}

/-- The parts of the block that the second simulation leaves alone, and the sizes of the three
regions between them. -/
structure ReplayFrame where
  front : List UInt8
  beforeAudits : List UInt8
  beforeCheckpoints : List UInt8
  back : List UInt8
  records : Nat
  audits : Nat
  checkpoints : Nat

/-- The room that is left behind the three cursors. -/
structure ReplayRooms where
  records : List UInt8
  audits : List UInt8
  checkpoints : List UInt8

/-- The block while the attempts are played. -/
def ReplayFrame.parts (f : ReplayFrame) (s : ReplayWriter) (room : ReplayRooms) :
    List (List UInt8) :=
  [f.front, s.records ++ room.records, f.beforeAudits, s.audits ++ room.audits,
    f.beforeCheckpoints, s.checkpoints ++ room.checkpoints, f.back]

/-- The regions have their sizes and the cursors stand behind what has been written. -/
structure CursorsAt (f : ReplayFrame) (s : ReplayWriter) (room : ReplayRooms)
    (c : ReplayCursors) : Prop where
  records : s.records.length + room.records.length = f.records
  audits : s.audits.length + room.audits.length = f.audits
  checkpoints : s.checkpoints.length + room.checkpoints.length = f.checkpoints
  work : c.work = s.work
  acceptedIndex : c.acceptedIndex = s.acceptedIndex
  record : c.record = f.front.length + s.records.length
  audit : c.audit = f.front.length + f.records + f.beforeAudits.length + s.audits.length
  checkpoint : c.checkpoint = f.front.length + f.records + f.beforeAudits.length + f.audits +
    f.beforeCheckpoints.length + s.checkpoints.length

/-- What the writer has fits the regions. -/
structure ReplayWriter.Fits (s : ReplayWriter) (f : ReplayFrame) : Prop where
  records : s.records.length ≤ f.records
  audits : s.audits.length ≤ f.audits
  checkpoints : s.checkpoints.length ≤ f.checkpoints

/-- A writer that has written on. -/
structure ReplayWriter.Grows (s t : ReplayWriter) : Prop where
  records : s.records.length ≤ t.records.length
  audits : s.audits.length ≤ t.audits.length
  checkpoints : s.checkpoints.length ≤ t.checkpoints.length

theorem ReplayWriter.Fits.of_grows {s t : ReplayWriter} {f : ReplayFrame} (h : t.Fits f)
    (hgrows : s.Grows t) : s.Fits f :=
  ⟨hgrows.records.trans h.records, hgrows.audits.trans h.audits,
    hgrows.checkpoints.trans h.checkpoints⟩

section positions

variable {f : ReplayFrame} {s : ReplayWriter} {room : ReplayRooms} {c : ReplayCursors}

theorem CursorsAt.record_eq (h : CursorsAt f s room c) :
    c.record = offset (f.parts s room) 1 + s.records.length := by
  rw [h.record]
  simp [offset, ReplayFrame.parts]

theorem CursorsAt.audit_eq (h : CursorsAt f s room c) :
    c.audit = offset (f.parts s room) 3 + s.audits.length := by
  have hsize := h.records
  rw [h.audit]
  simp only [offset, ReplayFrame.parts, List.take_succ_cons, List.take_zero, List.map_cons,
    List.map_nil, List.sum_cons, List.sum_nil, List.length_append]
  omega

theorem CursorsAt.checkpoint_eq (h : CursorsAt f s room c) :
    c.checkpoint = offset (f.parts s room) 5 + s.checkpoints.length := by
  have hrecords := h.records
  have haudits := h.audits
  rw [h.checkpoint]
  simp only [offset, ReplayFrame.parts, List.take_succ_cons, List.take_zero, List.map_cons,
    List.map_nil, List.sum_cons, List.sum_nil, List.length_append]
  omega

end positions

/-- What one attempt leaves in a writer. -/
theorem writeAttempt_cases {s t : ReplayWriter} {attempt : JointDecision × Nat}
    (h : writeAttempt context saveSize s attempt = .ok t) :
    (∃ work failure, fdWorldStep s.work attempt.1 stepOut = (work, .error failure) ∧
      fdReplayResultIsAuditable failure.code = true ∧
      t = { s with
        work := work
        audits := s.audits ++
          fdEncodeAudit (UInt64.ofNat attempt.2) work.tick attempt.1 failure }) ∨
    (∃ work step, fdWorldStep s.work attempt.1 stepOut = (work, .ok step) ∧
      ¬ stagingMismatch step ∧
      writeCheckpoint context saveSize { s with
        work := work
        records := s.records ++ fdEncodeReplayRecord (recordOf step)
        acceptedIndex := s.acceptedIndex + 1 } = .ok t) := by
  unfold writeAttempt at h
  split at h
  · next work failure hstep =>
      split at h
      · next hauditable => exact .inl ⟨work, failure, hstep, hauditable, (Except.ok.inj h).symm⟩
      · cases h
  · next work step hstep =>
      obtain ⟨hstaging, hcheckpoint⟩ := failIf_bind_eq_ok.mp h
      exact .inr ⟨work, step, hstep, hstaging, hcheckpoint⟩

/-- A checkpoint is written, or it is not due. -/
theorem writeCheckpoint_cases {s t : ReplayWriter} (h : writeCheckpoint context saveSize s = .ok t) :
    (¬ s.acceptedIndex % fdReplayCheckpointInterval = 0 ∧ t = s) ∨
    (s.acceptedIndex % fdReplayCheckpointInterval = 0 ∧ ∃ save,
      fdWorldSave context s.work saveSize = .ok save ∧ save.length = saveSize ∧
      t = { s with checkpoints := s.checkpoints ++ (fdStoreU64Le (UInt64.ofNat s.acceptedIndex) ++
        (fdStoreU64Le (UInt64.ofNat saveSize) ++ save)) }) := by
  unfold writeCheckpoint at h
  split at h
  · next hdue =>
      obtain ⟨save, hsave, hrest⟩ := bind_eq_ok.mp h
      obtain ⟨hlength, ht⟩ := failIf_bind_eq_ok.mp hrest
      exact .inr ⟨hdue, save, hsave, not_not.mp hlength, (Except.ok.inj ht).symm⟩
  · next hdue => exact .inl ⟨hdue, (Except.ok.inj h).symm⟩

theorem writeCheckpoint_grows {s t : ReplayWriter}
    (h : writeCheckpoint context saveSize s = .ok t) : s.Grows t := by
  rcases writeCheckpoint_cases h with ⟨-, rfl⟩ | ⟨-, save, -, -, rfl⟩
  · exact ⟨le_rfl, le_rfl, le_rfl⟩
  · refine ⟨le_rfl, le_rfl, ?_⟩
    rw [List.length_append]
    exact Nat.le_add_right _ _

theorem writeAttempt_grows {s t : ReplayWriter} {attempt : JointDecision × Nat}
    (h : writeAttempt context saveSize s attempt = .ok t) : s.Grows t := by
  rcases writeAttempt_cases h with ⟨work, failure, -, -, rfl⟩ | ⟨work, step, -, -, hcheckpoint⟩
  · refine ⟨le_rfl, ?_, le_rfl⟩
    rw [List.length_append]
    exact Nat.le_add_right _ _
  · have hgrows := writeCheckpoint_grows hcheckpoint
    refine ⟨le_trans ?_ hgrows.records, hgrows.audits, hgrows.checkpoints⟩
    rw [List.length_append]
    exact Nat.le_add_right _ _

theorem writeAttempts_grow {attempts : List (JointDecision × Nat)} {s t : ReplayWriter}
    (h : forEach attempts (writeAttempt context saveSize) s = .ok t) : s.Grows t := by
  induction attempts generalizing s with
  | nil =>
      rw [forEach_nil] at h
      cases h
      exact ⟨le_rfl, le_rfl, le_rfl⟩
  | cons attempt rest ih =>
      rw [forEach_cons] at h
      obtain ⟨next, hnext, hrest⟩ := bind_eq_ok.mp h
      have hfirst := writeAttempt_grows hnext
      have hlater := ih hrest
      exact ⟨hfirst.records.trans hlater.records, hfirst.audits.trans hlater.audits,
        hfirst.checkpoints.trans hlater.checkpoints⟩

section steps

variable {f : ReplayFrame} {s t : ReplayWriter} {room : ReplayRooms} {c : ReplayCursors}

theorem turns_record {p : Nat} {cells : List UInt8} (hfit : cells.length ≤ room.records.length)
    (hp : p = offset (f.parts s room) 1 + s.records.length) :
    Turns (storeAt p cells) () (f.parts s room)
      (f.parts { s with records := s.records ++ cells }
        { room with records := room.records.drop cells.length }) := turns_grow 1 rfl hfit hp

theorem turns_audit {p : Nat} {cells : List UInt8} (hfit : cells.length ≤ room.audits.length)
    (hp : p = offset (f.parts s room) 3 + s.audits.length) :
    Turns (storeAt p cells) () (f.parts s room)
      (f.parts { s with audits := s.audits ++ cells }
        { room with audits := room.audits.drop cells.length }) := turns_grow 3 rfl hfit hp

theorem turns_checkpoint {p : Nat} {cells : List UInt8}
    (hfit : cells.length ≤ room.checkpoints.length)
    (hp : p = offset (f.parts s room) 5 + s.checkpoints.length) :
    Turns (storeAt p cells) () (f.parts s room)
      (f.parts { s with checkpoints := s.checkpoints ++ cells }
        { room with checkpoints := room.checkpoints.drop cells.length }) := turns_grow 5 rfl hfit hp

/-- A checkpoint that is due is written at its cursor. -/
theorem writeCheckpointAt_turns (h : writeCheckpoint context saveSize s = .ok t)
    (hfit : t.Fits f) (hwork : s.work.Bounded) (hc : CursorsAt f s room c) :
    ∃ room' c', Turns (writeCheckpointAt context saveSize c) (.ok c') (f.parts s room)
      (f.parts t room') ∧ CursorsAt f t room' c' := by
  obtain ⟨work, record, audit, checkpoint, acceptedIndex⟩ := c
  obtain rfl : work = s.work := hc.work
  obtain rfl : acceptedIndex = s.acceptedIndex := hc.acceptedIndex
  unfold writeCheckpointAt
  rcases writeCheckpoint_cases h with ⟨hdue, rfl⟩ | ⟨hdue, save, hsave, hlength, rfl⟩
  · rw [if_neg hdue]
    exact ⟨room, _, turns_pure _ _, hc⟩
  · rw [if_pos hdue]
    have hsize := hc.checkpoints
    have hroom := hfit.checkpoints
    simp only [List.length_append, fdStoreU64Le_length, hlength] at hroom
    obtain ⟨head, hhead⟩ : ∃ head, head = fdStoreU64Le (UInt64.ofNat s.acceptedIndex) ++
      fdStoreU64Le (UInt64.ofNat saveSize) := ⟨_, rfl⟩
    have hsixteen : head.length = 16 := hhead ▸ rfl
    have hheader : Turns (storeAt checkpoint head) () (f.parts s room) _ :=
      turns_checkpoint (by omega) hc.checkpoint_eq
    have hparts : (f.parts { s with checkpoints := s.checkpoints ++ head }
          { room with checkpoints := room.checkpoints.drop head.length }).set 5
          (((s.checkpoints ++ head) ++ save) ++ (room.checkpoints.drop head.length).drop saveSize) =
        f.parts { s with checkpoints := s.checkpoints ++
            (fdStoreU64Le (UInt64.ofNat s.acceptedIndex) ++
              (fdStoreU64Le (UInt64.ofNat saveSize) ++ save)) }
          { room with checkpoints := room.checkpoints.drop (16 + saveSize) } := by
      rw [List.drop_drop, hsixteen, hhead]
      simp only [ReplayFrame.parts, List.append_assoc, List.set_cons_succ, List.set_cons_zero]
    have hsaved : Turns (saveAt context s.work (checkpoint + 16) saveSize) (.ok (), saveSize)
        (f.parts { s with checkpoints := s.checkpoints ++ head }
          { room with checkpoints := room.checkpoints.drop head.length })
        (f.parts { s with checkpoints := s.checkpoints ++
            (fdStoreU64Le (UInt64.ofNat s.acceptedIndex) ++
              (fdStoreU64Le (UInt64.ofNat saveSize) ++ save)) }
          { room with checkpoints := room.checkpoints.drop (16 + saveSize) }) := by
      rw [← hparts]
      refine turns_saveAt 5 hwork hsave hlength rfl ?_ ?_
      · rw [List.length_drop]
        omega
      · rw [show checkpoint = _ from hc.checkpoint_eq, List.length_append, hsixteen, Nat.add_assoc]
        rfl
    refine ⟨{ room with checkpoints := room.checkpoints.drop (16 + saveSize) },
      ⟨s.work, record, audit, checkpoint + (16 + saveSize), s.acceptedIndex⟩, ?_, ?_⟩
    · rw [storeAt_storeAt_bind (by rw [fdStoreU64Le_length]), ← hhead]
      refine hheader.seq (hsaved.bind ?_)
      change Turns (pure (if saveSize ≠ saveSize then _ else _)) _ _ _
      rw [if_neg (not_not.mpr rfl)]
      exact turns_pure _ _
    · refine ⟨hc.records, hc.audits, ?_, rfl, rfl, hc.record, hc.audit, ?_⟩
      · simp only [List.length_append, List.length_drop, fdStoreU64Le_length, hlength]
        omega
      · have hcursor := hc.checkpoint
        simp only [List.length_append, fdStoreU64Le_length, hlength] at hcursor ⊢
        omega

/-- A step, accepted or not, leaves the sizes of a world. -/
theorem bounded_step {world next : World} {decision : JointDecision} {out : StructHeader}
    {result : Except Fail StepResult} (h : fdWorldStep world decision out = (next, result))
    (hworld : world.Bounded) : next.Bounded := by
  rcases fdWorldStep_cases world decision out with ⟨-, -, hstep⟩ | ⟨failure, hstep⟩
  · rw [h] at hstep
    cases hstep
    exact ⟨hworld.tiles, hworld.names⟩
  · rw [h] at hstep
    cases hstep
    exact hworld

theorem fdEncodeAudit_length (attemptIndex tick : UInt64) (decision : JointDecision)
    (diagnostic : Fail) : (fdEncodeAudit attemptIndex tick decision diagnostic).length = 328 := by
  refine ReplayAudit.encode_length ?_
  change (diagMessage diagnostic).length < 160
  rw [diagMessage, List.length_take, show fdDiagMessageBytes = 160 from rfl]
  omega

/-- One attempt of the second simulation. -/
theorem writeAttemptAt_turns {attempt : JointDecision × Nat}
    (h : writeAttempt context saveSize s attempt = .ok t) (hfit : t.Fits f)
    (hwork : s.work.Bounded) (hc : CursorsAt f s room c) :
    ∃ room' c', Turns (writeAttemptAt context saveSize c attempt) (.ok c') (f.parts s room)
      (f.parts t room') ∧ CursorsAt f t room' c' ∧ t.work.Bounded := by
  unfold writeAttemptAt
  rw [hc.work]
  rcases writeAttempt_cases h with ⟨work, failure, hstep, hauditable, rfl⟩ |
    ⟨work, step, hstep, hstaging, hcheckpoint⟩
  · have hsize := hc.audits
    have hroom := hfit.audits
    simp only [List.length_append, fdEncodeAudit_length] at hroom
    simp only [hstep, hauditable, if_true, storeAudit_eq]
    have haudit : Turns (storeAt c.audit
        (fdEncodeAudit (UInt64.ofNat attempt.2) work.tick attempt.1 failure)) () (f.parts s room) _ :=
      turns_audit (by rw [fdEncodeAudit_length]; omega) hc.audit_eq
    refine ⟨_, _, haudit.seq (turns_pure _ _), ⟨hc.records, ?_, hc.checkpoints, rfl,
      hc.acceptedIndex, hc.record, ?_, hc.checkpoint⟩, bounded_step hstep hwork⟩
    · simp only [List.length_append, List.length_drop, fdEncodeAudit_length]
      omega
    · simp only [List.length_append, fdEncodeAudit_length, hc.audit]
      exact Nat.add_assoc _ _ _
  · have hgrows := (writeCheckpoint_grows hcheckpoint).records
    have hsize := hc.records
    have hroom := hfit.records
    simp only [List.length_append, fdEncodeReplayRecord_length] at hgrows
    simp only [hstep, if_neg hstaging, storeReplayRecord_eq]
    have hrecord : Turns (storeAt c.record (fdEncodeReplayRecord (recordOf step))) ()
        (f.parts s room) _ :=
      turns_record (by rw [fdEncodeReplayRecord_length]; omega) hc.record_eq
    have hcursors : CursorsAt f { s with
          work := work
          records := s.records ++ fdEncodeReplayRecord (recordOf step)
          acceptedIndex := s.acceptedIndex + 1 }
        { room with records := room.records.drop (fdEncodeReplayRecord (recordOf step)).length }
        { c with
          work := work
          record := c.record + fdReplayRecordWireSize
          acceptedIndex := c.acceptedIndex + 1 } := by
      refine ⟨?_, hc.audits, hc.checkpoints, rfl, congrArg (· + 1) hc.acceptedIndex, ?_,
        hc.audit, hc.checkpoint⟩
      · simp only [List.length_append, List.length_drop, fdEncodeReplayRecord_length]
        omega
      · simp only [List.length_append, fdEncodeReplayRecord_length, hc.record]
        exact Nat.add_assoc _ _ _
    have hbounded := bounded_step hstep hwork
    obtain ⟨room', c', hwrite, hc'⟩ := writeCheckpointAt_turns hcheckpoint hfit hbounded hcursors
    refine ⟨room', c', hrecord.seq hwrite, hc', ?_⟩
    rcases writeCheckpoint_cases hcheckpoint with ⟨-, rfl⟩ | ⟨-, save, -, -, rfl⟩
    · exact hbounded
    · exact hbounded

/-- The whole second simulation: what the pure writer has collected stands in the regions. -/
theorem writeAttemptsAt_turns {attempts : List (JointDecision × Nat)}
    (h : forEach attempts (writeAttempt context saveSize) s = .ok t) (hfit : t.Fits f)
    (hwork : s.work.Bounded) (hc : CursorsAt f s room c) :
    ∃ room' c', Turns (writeAttemptsAt context saveSize attempts c) (.ok c') (f.parts s room)
      (f.parts t room') ∧ CursorsAt f t room' c' := by
  induction attempts generalizing s room c with
  | nil =>
      rw [forEach_nil] at h
      cases h
      exact ⟨room, c, turns_pure _ _, hc⟩
  | cons attempt rest ih =>
      rw [forEach_cons] at h
      obtain ⟨next, hnext, hrest⟩ := bind_eq_ok.mp h
      obtain ⟨room', c', hfirst, hc', hwork'⟩ :=
        writeAttemptAt_turns hnext (hfit.of_grows (writeAttempts_grow hrest)) hwork hc
      obtain ⟨room'', c'', hlater, hc''⟩ := ih hrest hwork' hc'
      exact ⟨room'', c'', hfirst.bind hlater, hc''⟩

end steps

end loop

section layout

variable {shape : List Nat} {parts : List (List UInt8)} {p : Nat}

/-- A section is finished by the digest of its payload, which may be several regions long. -/
theorem fills_finishSection (i n : Nat) {length : Nat} (hp : p = (shape.take i).sum)
    (hlength : length = ((shape.drop i).take n).sum) (hdigest : shape[i + n]? = some 32) :
    Fills shape (fdReplayFinishSection p length) () parts
      (parts.set (i + n) (fdSha256 ((parts.drop i).take n).flatten).toList) := by
  refine (fills_loadAt i n hp hlength).bind (fills_storeAt (i + n) ?_ ?_)
  · rw [hdigest, List.Vector.toList_length]
  · rw [List.take_add, List.sum_append, ← hp, ← hlength]

theorem fills_header (i : Nat) (tag : UInt16) (length : Nat) (hp : p = (shape.take i).sum)
    (hsize : shape[i]? = some 16) :
    Fills shape (fdReplayWriteSectionHeader p tag length) () parts
      (parts.set i (fdBeginSection tag length)) := by
  rw [fdReplayWriteSectionHeader_eq]
  exact fills_storeAt i hsize hp

theorem fills_saveAt {context : FdContext} {world : World} {bytes : List UInt8} {length : Nat}
    (i : Nat) (hworld : world.Bounded) (hsave : fdWorldSave context world length = .ok bytes)
    (hlength : bytes.length = length) (hp : p = (shape.take i).sum)
    (hsize : shape[i]? = some length) :
    Fills shape (saveAt context world p length) (.ok (), length) parts (parts.set i bytes) := by
  intro h
  obtain ⟨room, hold, hroom⟩ := region_of_shape h hsize
  have hsaved : Turns (saveAt context world p length) (.ok (), length) parts
      (parts.set i (([] ++ bytes) ++ room.drop length)) :=
    turns_saveAt i hworld hsave hlength hold hroom.ge
      (by rw [hp, offset_eq_shape h, List.length_nil, Nat.add_zero])
  have hdrop : room.drop length = [] := by rw [List.drop_eq_nil_iff, hroom]
  rw [hdrop, List.nil_append, List.append_nil] at hsaved
  exact ⟨hsaved, shape_set h (by rw [hsize, hlength])⟩

/-- The sizes of the regions of a replay, from the magic to the footer and what lies behind. -/
def replayShape (accepted audits : Nat) (sizes : ReplaySizes) (rest : Nat) : List Nat :=
  [8, 16, 28, 32, 16, sizes.saveSize, 32, 16, 8, accepted * 228, 32, 16, 4, audits * 328, 32, 16, 4,
    sizes.checkpoints * (16 + sizes.saveSize), 32, 32, rest]

def zeros (n : Nat) : List UInt8 := List.replicate n 0

/-- A block that has been cleared up to `rest`. -/
def clearedParts (accepted audits : Nat) (sizes : ReplaySizes) (rest : List UInt8) :
    List (List UInt8) :=
  [zeros 8, zeros 16, zeros 28, zeros 32, zeros 16, zeros sizes.saveSize, zeros 32, zeros 16,
    zeros 8, zeros (accepted * 228), zeros 32, zeros 16, zeros 4, zeros (audits * 328), zeros 32,
    zeros 16, zeros 4, zeros (sizes.checkpoints * (16 + sizes.saveSize)), zeros 32, zeros 32, rest]

/-- The block before the second simulation. -/
def drawnParts (accepted audits : Nat) (sizes : ReplaySizes) (save rest : List UInt8) :
    List (List UInt8) :=
  let manifest := replayManifestPayload accepted sizes.checkpoints audits
  [fdReplayMagic, fdBeginSection 1 28, manifest, (fdSha256 manifest).toList,
    fdBeginSection 2 sizes.saveSize, save, (fdSha256 save).toList,
    fdBeginSection 3 (recordsLength accepted), fdStoreU64Le (UInt64.ofNat accepted),
    zeros (accepted * 228), zeros 32,
    fdBeginSection 4 (auditsLength audits), fdStoreU32Le (UInt32.ofNat audits),
    zeros (audits * 328), zeros 32,
    fdBeginSection 5 (checkpointsLength sizes), fdStoreU32Le (UInt32.ofNat sizes.checkpoints),
    zeros (sizes.checkpoints * (16 + sizes.saveSize)), zeros 32, zeros 32, rest]

theorem storeManifest_eq (accepted audits : Nat) (sizes : ReplaySizes) :
    storeManifest accepted audits sizes = (do
      fdReplayWriteSectionHeader 8 1 28
      storeAt payload1 (replayManifestPayload accepted sizes.checkpoints audits)
      fdReplayFinishSection payload1 28) := by
  unfold storeManifest
  simp (disch := simp -implicitDefEqProofs [Nat.add_assoc]) only [storeAt_storeAt_bind,
    replayManifestPayload]

section drawing

variable {context : FdContext} {world : World} {accepted audits : Nat} {sizes : ReplaySizes}
  {save rest : List UInt8}

theorem clearedParts_shape (accepted audits : Nat) (sizes : ReplaySizes) (rest : List UInt8) :
    (clearedParts accepted audits sizes rest).map List.length =
      replayShape accepted audits sizes rest.length := by
  simp only [clearedParts, replayShape, zeros, List.map_cons, List.map_nil, List.length_replicate]

/-- The three payloads start where the layout says. -/
theorem layout_positions (accepted audits : Nat) (sizes : ReplaySizes) (rest : Nat) :
    (replayLayout accepted audits sizes).position3 =
        ((replayShape accepted audits sizes rest).take 7).sum ∧
      (replayLayout accepted audits sizes).position4 =
        ((replayShape accepted audits sizes rest).take 11).sum ∧
      (replayLayout accepted audits sizes).position5 =
        ((replayShape accepted audits sizes rest).take 15).sum ∧
      (replayLayout accepted audits sizes).last =
        ((replayShape accepted audits sizes rest).take 19).sum := by
  simp only [replayLayout, replayShape, payload2, position2, payload1, recordsLength, auditsLength,
    checkpointsLength, List.take_succ_cons, List.take_zero, List.sum_cons, List.sum_nil,
    show fdReplayRecordWireSize = 228 from rfl, show fdReplayAuditWireSize = 328 from rfl]
  omega

/-- The sections are drawn over a cleared block. -/
theorem fills_drawSections (hworld : world.Bounded)
    (hsave : fdWorldSave context world sizes.saveSize = .ok save)
    (hlength : save.length = sizes.saveSize)
    (hlast : (replayLayout accepted audits sizes).last + 32 = sizes.total) :
    Fills (replayShape accepted audits sizes rest.length)
      (drawSections context world accepted audits sizes) (.ok ())
      (clearedParts accepted audits sizes rest) (drawnParts accepted audits sizes save rest) := by
  obtain ⟨h3, h4, h5, -⟩ := layout_positions accepted audits sizes rest.length
  have hpayload : ∀ i p, p = ((replayShape accepted audits sizes rest.length).take i).sum →
      (replayShape accepted audits sizes rest.length)[i]? = some 16 →
      p + 16 = ((replayShape accepted audits sizes rest.length).take (i + 1)).sum := by
    intro i p hp hi
    rw [List.take_add_one, hi, List.sum_append, ← hp]
    rfl
  unfold drawSections
  rw [storeManifest_eq]
  apply Fills.cast
  · apply (fills_storeAt 0 rfl rfl).seq
    apply Fills.seq ((fills_header 1 1 28 rfl rfl).seq ((fills_storeAt 2 rfl rfl).seq
      (fills_finishSection 2 1 rfl rfl rfl)))
    apply (fills_header 4 2 sizes.saveSize rfl rfl).seq
    apply (fills_saveAt 5 hworld hsave hlength rfl rfl).bind
    change Fills _ (if sizes.saveSize ≠ sizes.saveSize then _ else _) _ _ _
    rw [if_neg (not_not.mpr rfl), if_neg (not_not.mpr hlast)]
    apply (fills_finishSection 5 1 rfl rfl rfl).seq
    apply (fills_header 7 3 (recordsLength accepted) h3 rfl).seq
    apply (fills_storeAt 8 rfl (hpayload 7 _ h3 rfl)).seq
    apply (fills_header 11 4 (auditsLength audits) h4 rfl).seq
    apply (fills_storeAt 12 rfl (hpayload 11 _ h4 rfl)).seq
    apply (fills_header 15 5 (checkpointsLength sizes) h5 rfl).seq
    apply (fills_storeAt 16 rfl (hpayload 15 _ h5 rfl)).seq
    exact fills_pure _ _ _
  · simp only [clearedParts, drawnParts, List.set_cons_zero, List.set_cons_succ, List.drop_succ_cons,
      List.drop_zero, List.take_succ_cons, List.take_zero, List.flatten_cons, List.flatten_nil,
      List.append_nil]

theorem flatten_zeros (sizes : List Nat) (rest : List UInt8) :
    (sizes.map zeros ++ [rest]).flatten = zeros sizes.sum ++ rest := by
  induction sizes with
  | nil => rw [List.map_nil, List.nil_append, List.flatten_cons, List.flatten_nil,
      List.append_nil, List.sum_nil, zeros, List.replicate_zero, List.nil_append]
  | cons size sizes ih =>
      rw [List.map_cons, List.cons_append, List.flatten_cons, ih, List.sum_cons, zeros, zeros,
        zeros, List.replicate_add, List.append_assoc]

/-- The cleared regions are one store of zero bytes over the front of the buffer. -/
theorem clearedParts_flatten (hlast : (replayLayout accepted audits sizes).last + 32 = sizes.total) :
    (clearedParts accepted audits sizes rest).flatten = zeros sizes.total ++ rest := by
  have hparts : clearedParts accepted audits sizes rest =
      ((replayShape accepted audits sizes 0).take 20).map zeros ++ [rest] := rfl
  have htotal : ((replayShape accepted audits sizes 0).take 20).sum = sizes.total := by
    obtain ⟨-, -, -, hend⟩ := layout_positions accepted audits sizes 0
    rw [← hlast, hend, List.take_add_one, List.sum_append]
    simp only [replayShape, List.getElem?_cons_succ, List.getElem?_cons_zero, Option.toList_some,
      List.sum_cons, List.sum_nil, Nat.add_zero]
  rw [hparts, flatten_zeros, htotal]

/-- What `fd_replay_build_into` has drawn when it takes the clone. -/
theorem drawLayout_eq (hworld : world.Bounded)
    (hsave : fdWorldSave context world sizes.saveSize = .ok save)
    (hlength : save.length = sizes.saveSize)
    (hlast : (replayLayout accepted audits sizes).last + 32 = sizes.total) {buffer : List UInt8}
    (hbuffer : sizes.total ≤ buffer.length) :
    drawLayout context world accepted audits sizes buffer =
      some (.ok (),
        (drawnParts accepted audits sizes save (buffer.drop sizes.total)).flatten) := by
  have hstore : store buffer 0 (zeros sizes.total) =
      some (clearedParts accepted audits sizes (buffer.drop sizes.total)).flatten := by
    have hzeros : (zeros sizes.total).length = sizes.total := List.length_replicate
    rw [store, if_pos (by rw [hzeros]; omega), hzeros, List.take_zero, List.nil_append,
      Nat.zero_add, clearedParts_flatten hlast]
  obtain ⟨hdraw, -⟩ := fills_drawSections hworld hsave hlength hlast
    (clearedParts_shape accepted audits sizes (buffer.drop sizes.total))
  unfold Turns at hdraw
  have hlayout : drawLayout context world accepted audits sizes buffer =
      (store buffer 0 (zeros sizes.total)).bind
        (drawSections context world accepted audits sizes) := by
    unfold drawLayout
    change ((store buffer 0 (zeros sizes.total)).map fun memory => ((), memory)).bind
      (fun x => drawSections context world accepted audits sizes x.2) = _
    rw [Option.bind_map]
    rfl
  rw [hlayout, hstore, Option.bind_some, hdraw]

end drawing

section finishing

variable {context : FdContext} {accepted audits : Nat} {sizes : ReplaySizes}
  {save rest : List UInt8}

/-- The regions that the cursors run through, between the drawn ones. -/
def replayFrame (accepted audits : Nat) (sizes : ReplaySizes) (save rest : List UInt8) :
    ReplayFrame where
  front := ((drawnParts accepted audits sizes save rest).take 9).flatten
  beforeAudits := (((drawnParts accepted audits sizes save rest).drop 10).take 3).flatten
  beforeCheckpoints := (((drawnParts accepted audits sizes save rest).drop 14).take 3).flatten
  back := ((drawnParts accepted audits sizes save rest).drop 18).flatten
  records := accepted * 228
  audits := audits * 328
  checkpoints := sizes.checkpoints * (16 + sizes.saveSize)

/-- The drawn block with what the cursors have put into their regions. -/
def playedParts (accepted audits : Nat) (sizes : ReplaySizes) (save rest : List UInt8)
    (s : ReplayWriter) (room : ReplayRooms) : List (List UInt8) :=
  (((drawnParts accepted audits sizes save rest).set 9 (s.records ++ room.records)).set 13
    (s.audits ++ room.audits)).set 17 (s.checkpoints ++ room.checkpoints)

theorem parts_flatten (s : ReplayWriter) (room : ReplayRooms) :
    ((replayFrame accepted audits sizes save rest).parts s room).flatten =
      (playedParts accepted audits sizes save rest s room).flatten := by
  simp only [ReplayFrame.parts, replayFrame, playedParts, drawnParts, List.set_cons_zero,
    List.set_cons_succ, List.take_succ_cons, List.take_zero, List.drop_succ_cons, List.drop_zero,
    List.flatten_cons, List.flatten_nil, List.append_assoc, List.append_nil]

theorem drawnParts_shape (hlength : save.length = sizes.saveSize) :
    (drawnParts accepted audits sizes save rest).map List.length =
      replayShape accepted audits sizes rest.length := by
  simp only [drawnParts, replayShape, zeros, List.map_cons, List.map_nil, List.length_replicate,
    hlength, List.Vector.toList_length, fdStoreU64Le_length, fdStoreU32Le_length]
  rfl

/-- The cursors of a block whose entries are not yet written. -/
theorem cursorsAt_start (hlength : save.length = sizes.saveSize) (work : World) :
    CursorsAt (replayFrame accepted audits sizes save rest) ⟨work, [], [], [], 0⟩
      ⟨zeros (accepted * 228), zeros (audits * 328),
        zeros (sizes.checkpoints * (16 + sizes.saveSize))⟩
      ⟨work, (replayLayout accepted audits sizes).payload3 + 8,
        (replayLayout accepted audits sizes).payload4 + 4,
        (replayLayout accepted audits sizes).payload5 + 4, 0⟩ := by
  have hshape : (drawnParts accepted audits sizes save rest).map List.length = _ :=
    drawnParts_shape hlength
  have hfront : (replayFrame accepted audits sizes save rest).front.length =
      ((replayShape accepted audits sizes rest.length).take 9).sum := length_eq_shape hshape 0 9
  have haudits : (replayFrame accepted audits sizes save rest).beforeAudits.length = 52 :=
    length_eq_shape hshape 10 3
  have hcheckpoints : (replayFrame accepted audits sizes save rest).beforeCheckpoints.length = 52 :=
    length_eq_shape hshape 14 3
  have hsizes : (replayFrame accepted audits sizes save rest).records = accepted * 228 ∧
      (replayFrame accepted audits sizes save rest).audits = audits * 328 := ⟨rfl, rfl⟩
  obtain ⟨h3, h4, h5, -⟩ := layout_positions accepted audits sizes rest.length
  simp only [replayShape, List.take_succ_cons, List.take_zero, List.sum_cons,
    List.sum_nil] at h3 h4 h5 hfront
  refine ⟨?_, ?_, ?_, rfl, rfl, ?_, ?_, ?_⟩
  · exact (Nat.zero_add _).trans List.length_replicate
  · exact (Nat.zero_add _).trans List.length_replicate
  · exact (Nat.zero_add _).trans List.length_replicate
  · simp only [ReplayLayout.payload3, h3, hfront, List.length_nil]
    omega
  · simp only [ReplayLayout.payload4, h4, hfront, haudits, hsizes, List.length_nil]
    omega
  · simp only [ReplayLayout.payload5, h5, hfront, haudits, hcheckpoints, hsizes, List.length_nil]
    omega

/-- The payloads of the sections, once the attempts are played. -/
def replayPayloads (accepted audits : Nat) (sizes : ReplaySizes) (save : List UInt8)
    (s : ReplayWriter) : ReplayPayloads where
  manifest := replayManifestPayload accepted sizes.checkpoints audits
  save := save
  records := fdStoreU64Le (UInt64.ofNat accepted) ++ s.records
  audits := fdStoreU32Le (UInt32.ofNat audits) ++ s.audits
  checkpoints := fdStoreU32Le (UInt32.ofNat sizes.checkpoints) ++ s.checkpoints

/-- The bytes in front of the footer, region by region. -/
def bodyParts (accepted audits : Nat) (sizes : ReplaySizes) (save : List UInt8)
    (s : ReplayWriter) : List (List UInt8) :=
  let p := replayPayloads accepted audits sizes save s
  [fdReplayMagic, fdBeginSection 1 28, p.manifest, (fdSha256 p.manifest).toList,
    fdBeginSection 2 sizes.saveSize, save, (fdSha256 save).toList,
    fdBeginSection 3 (recordsLength accepted), fdStoreU64Le (UInt64.ofNat accepted), s.records,
    (fdSha256 p.records).toList,
    fdBeginSection 4 (auditsLength audits), fdStoreU32Le (UInt32.ofNat audits), s.audits,
    (fdSha256 p.audits).toList,
    fdBeginSection 5 (checkpointsLength sizes), fdStoreU32Le (UInt32.ofNat sizes.checkpoints),
    s.checkpoints, (fdSha256 p.checkpoints).toList]

/-- The writer has filled its regions. -/
structure ReplayWriter.Full (s : ReplayWriter) (accepted audits : Nat) (sizes : ReplaySizes) :
    Prop where
  records : s.records.length = accepted * 228
  audits : s.audits.length = audits * 328
  checkpoints : s.checkpoints.length = sizes.checkpoints * (16 + sizes.saveSize)

/-- The regions of the body are the body of the pure builder. -/
theorem bodyParts_flatten {s : ReplayWriter} (hlength : save.length = sizes.saveSize)
    (hfull : s.Full accepted audits sizes) :
    (bodyParts accepted audits sizes save s).flatten =
      replayBody accepted audits sizes (replayPayloads accepted audits sizes save s) := by
  have hrecords : (replayPayloads accepted audits sizes save s).records.length =
      recordsLength accepted := by
    change (fdStoreU64Le _ ++ s.records).length = 8 + accepted * 228
    rw [List.length_append, fdStoreU64Le_length, hfull.records]
  have haudits : (replayPayloads accepted audits sizes save s).audits.length =
      auditsLength audits := by
    change (fdStoreU32Le _ ++ s.audits).length = 4 + audits * 328
    rw [List.length_append, fdStoreU32Le_length, hfull.audits]
  have hcheckpoints : (replayPayloads accepted audits sizes save s).checkpoints.length =
      checkpointsLength sizes := by
    change (fdStoreU32Le _ ++ s.checkpoints).length = 4 + sizes.checkpoints * (16 + sizes.saveSize)
    rw [List.length_append, fdStoreU32Le_length, hfull.checkpoints]
  have hmanifest : (replayPayloads accepted audits sizes save s).manifest.length = 28 := rfl
  have hsave : (replayPayloads accepted audits sizes save s).save.length = sizes.saveSize := hlength
  simp only [bodyParts, replayBody, writeSection, fdEndSection, List.take_of_length_le hrecords.le,
    List.take_of_length_le haudits.le, List.take_of_length_le hcheckpoints.le,
    List.take_of_length_le hmanifest.le, List.take_of_length_le hsave.le, List.flatten_cons,
    List.flatten_nil, List.append_nil, List.append_assoc]
  simp only [replayPayloads, List.append_assoc]

/-- The last digests and the footer, over regions that are full. -/
theorem fills_finishReplayAt {s : ReplayWriter} {c : ReplayCursors}
    (hrecord : c.record = (replayLayout accepted audits sizes).payload3 + recordsLength accepted)
    (haudit : c.audit = (replayLayout accepted audits sizes).payload4 + auditsLength audits)
    (hcheckpoint : c.checkpoint =
      (replayLayout accepted audits sizes).payload5 + checkpointsLength sizes)
    (hlast : (replayLayout accepted audits sizes).last + 32 = sizes.total) :
    Fills (replayShape accepted audits sizes rest.length) (finishReplayAt accepted audits sizes c)
      (.ok ()) (playedParts accepted audits sizes save rest s ⟨[], [], []⟩)
      (bodyParts accepted audits sizes save s ++
        [(fdReplayFooterDigest (bodyParts accepted audits sizes save s).flatten).toList, rest]) := by
  obtain ⟨h3, h4, h5, hend⟩ := layout_positions accepted audits sizes rest.length
  have hpayload : ∀ i p, p = ((replayShape accepted audits sizes rest.length).take i).sum →
      (replayShape accepted audits sizes rest.length)[i]? = some 16 →
      p + 16 = ((replayShape accepted audits sizes rest.length).take (i + 1)).sum := by
    intro i p hp hi
    rw [List.take_add_one, hi, List.sum_append, ← hp]
    rfl
  have hbody : sizes.total - 32 = ((replayShape accepted audits sizes rest.length).take 19).sum := by
    rw [← hlast, Nat.add_sub_cancel, hend]
  have hlengths : recordsLength accepted =
        (((replayShape accepted audits sizes rest.length).drop 8).take 2).sum ∧
      auditsLength audits =
        (((replayShape accepted audits sizes rest.length).drop 12).take 2).sum ∧
      checkpointsLength sizes =
        (((replayShape accepted audits sizes rest.length).drop 16).take 2).sum := by
    simp only [recordsLength, auditsLength, checkpointsLength, replayShape, List.drop_succ_cons,
      List.drop_zero, List.take_succ_cons, List.take_zero, List.sum_cons, List.sum_nil,
      Nat.add_zero, and_self]
  unfold finishReplayAt
  simp only [hrecord, haudit, hcheckpoint, ne_eq, not_true_eq_false, or_self, if_false]
  apply Fills.cast
  · apply (fills_finishSection 8 2 (hpayload 7 _ h3 rfl) hlengths.1 rfl).seq
    apply (fills_finishSection 12 2 (hpayload 11 _ h4 rfl) hlengths.2.1 rfl).seq
    apply (fills_finishSection 16 2 (hpayload 15 _ h5 rfl) hlengths.2.2 rfl).seq
    apply (fills_loadAt 0 19 rfl hbody).bind
    apply (fills_storeAt 19 _ hbody).seq
    · exact fills_pure _ _ _
    · rw [List.Vector.toList_length]
      rfl
  · simp only [playedParts, drawnParts, bodyParts, replayPayloads, List.set_cons_zero,
      List.set_cons_succ, List.drop_succ_cons, List.drop_zero, List.take_succ_cons, List.take_zero,
      List.flatten_cons, List.flatten_nil, List.append_nil, List.cons_append, List.nil_append]

/-- Regions of which nothing is left. -/
theorem rooms_nil {s : ReplayWriter} {room : ReplayRooms} {c : ReplayCursors}
    (hfull : s.Full accepted audits sizes)
    (hc : CursorsAt (replayFrame accepted audits sizes save rest) s room c) :
    room = ⟨[], [], []⟩ := by
  have hrecords : s.records.length + room.records.length = accepted * 228 := hc.records
  have haudits : s.audits.length + room.audits.length = audits * 328 := hc.audits
  have hcheckpoints : s.checkpoints.length + room.checkpoints.length =
      sizes.checkpoints * (16 + sizes.saveSize) := hc.checkpoints
  rw [hfull.records] at hrecords
  rw [hfull.audits] at haudits
  rw [hfull.checkpoints] at hcheckpoints
  obtain ⟨records, audits, checkpoints⟩ := room
  congr 1
  · exact List.length_eq_zero_iff.mp (Nat.left_eq_add.mp hrecords.symm)
  · exact List.length_eq_zero_iff.mp (Nat.left_eq_add.mp haudits.symm)
  · exact List.length_eq_zero_iff.mp (Nat.left_eq_add.mp hcheckpoints.symm)

/-- The cursors stand on the ends of the sections they have filled. -/
structure ReplayCursors.AtEnds (c : ReplayCursors) (accepted audits : Nat) (sizes : ReplaySizes) :
    Prop where
  record : c.record = (replayLayout accepted audits sizes).payload3 + recordsLength accepted
  audit : c.audit = (replayLayout accepted audits sizes).payload4 + auditsLength audits
  checkpoint : c.checkpoint = (replayLayout accepted audits sizes).payload5 +
    checkpointsLength sizes

/-- Full regions leave the cursors on the ends of their sections. -/
theorem cursors_end {s : ReplayWriter} {room : ReplayRooms} {c : ReplayCursors}
    (hlength : save.length = sizes.saveSize) (hfull : s.Full accepted audits sizes)
    (hc : CursorsAt (replayFrame accepted audits sizes save rest) s room c) :
    c.AtEnds accepted audits sizes := by
  have hstart : CursorsAt (replayFrame accepted audits sizes save rest) _ _ _ :=
    cursorsAt_start hlength c.work
  obtain ⟨frame, hframe⟩ : ∃ frame, frame = replayFrame accepted audits sizes save rest := ⟨_, rfl⟩
  rw [← hframe] at hc hstart
  have hrecord : (replayLayout accepted audits sizes).payload3 + 8 = frame.front.length :=
    hstart.record
  have haudit : (replayLayout accepted audits sizes).payload4 + 4 =
      frame.front.length + frame.records + frame.beforeAudits.length := hstart.audit
  have hcheckpoint : (replayLayout accepted audits sizes).payload5 + 4 =
      frame.front.length + frame.records + frame.beforeAudits.length + frame.audits +
        frame.beforeCheckpoints.length := hstart.checkpoint
  refine ⟨?_, ?_, ?_⟩
  · rw [hc.record, ← hrecord, hfull.records]
    exact Nat.add_assoc _ _ _
  · rw [hc.audit, ← haudit, hfull.audits]
    exact Nat.add_assoc _ _ _
  · rw [hc.checkpoint, ← hcheckpoint, hfull.checkpoints]
    exact Nat.add_assoc _ _ _

/-- Where the three cursors start. -/
def startCursors (accepted audits : Nat) (sizes : ReplaySizes) (work : World) : ReplayCursors where
  work := work
  record := (replayLayout accepted audits sizes).payload3 + 8
  audit := (replayLayout accepted audits sizes).payload4 + 4
  checkpoint := (replayLayout accepted audits sizes).payload5 + 4
  acceptedIndex := 0

/-- The attempts on the drawn block: the regions are filled when the cursors are at their ends. -/
theorem writeAttemptsAt_drawn {work : World} {decisions : List JointDecision} {t : ReplayWriter}
    (hrun : forEach decisions.zipIdx (writeAttempt context sizes.saveSize) ⟨work, [], [], [], 0⟩ =
      .ok t) (hfull : t.Full accepted audits sizes) (hwork : work.Bounded)
    (hlength : save.length = sizes.saveSize) :
    ∃ c, writeAttemptsAt context sizes.saveSize decisions.zipIdx
        (startCursors accepted audits sizes work)
        (drawnParts accepted audits sizes save rest).flatten =
      some (.ok c, (playedParts accepted audits sizes save rest t ⟨[], [], []⟩).flatten) ∧
      c.AtEnds accepted audits sizes := by
  have hfit : t.Fits (replayFrame accepted audits sizes save rest) :=
    ⟨hfull.records.le, hfull.audits.le, hfull.checkpoints.le⟩
  obtain ⟨room, c, hplay, hc⟩ :=
    writeAttemptsAt_turns hrun hfit hwork (cursorsAt_start hlength work)
  obtain rfl := rooms_nil hfull hc
  have hdrawn : ((replayFrame accepted audits sizes save rest).parts ⟨work, [], [], [], 0⟩
      ⟨zeros (accepted * 228), zeros (audits * 328),
        zeros (sizes.checkpoints * (16 + sizes.saveSize))⟩).flatten =
      (drawnParts accepted audits sizes save rest).flatten := by
    rw [parts_flatten]
    rfl
  unfold Turns at hplay
  rw [hdrawn, parts_flatten] at hplay
  exact ⟨c, hplay, cursors_end hlength hfull hc⟩

/-- The whole second simulation on the drawn block. -/
theorem playInto_eq {work : World} {decisions : List JointDecision} {t : ReplayWriter}
    (hrun : forEach decisions.zipIdx (writeAttempt context sizes.saveSize) ⟨work, [], [], [], 0⟩ =
      .ok t) (hfull : t.Full accepted audits sizes) (hwork : work.Bounded)
    (hlength : save.length = sizes.saveSize)
    (hlast : (replayLayout accepted audits sizes).last + 32 = sizes.total) :
    playInto context decisions accepted audits sizes work
        (drawnParts accepted audits sizes save rest).flatten =
      some (.ok (), replayBody accepted audits sizes
          (replayPayloads accepted audits sizes save t) ++
        ((fdReplayFooterDigest (replayBody accepted audits sizes
          (replayPayloads accepted audits sizes save t))).toList ++ rest)) := by
  obtain ⟨c, hplay, hends⟩ : ∃ c, writeAttemptsAt context sizes.saveSize decisions.zipIdx _
      (drawnParts accepted audits sizes save rest).flatten = some (.ok c, _) ∧ _ :=
    writeAttemptsAt_drawn hrun hfull hwork hlength
  have hplayed : (playedParts accepted audits sizes save rest t ⟨[], [], []⟩).map List.length =
      replayShape accepted audits sizes rest.length := by
    refine shape_set (shape_set (shape_set (drawnParts_shape hlength) ?_) ?_) ?_
    · rw [List.append_nil, hfull.records]
      rfl
    · rw [List.append_nil, hfull.audits]
      rfl
    · rw [List.append_nil, hfull.checkpoints]
      rfl
  obtain ⟨hfinish, -⟩ :=
    fills_finishReplayAt hends.record hends.audit hends.checkpoint hlast hplayed
  unfold Turns at hfinish
  unfold playInto
  change (writeAttemptsAt context sizes.saveSize decisions.zipIdx
    (startCursors accepted audits sizes work) _).bind _ = _
  rw [hplay, Option.bind_some]
  change finishReplayAt accepted audits sizes c _ = _
  rw [hfinish, List.flatten_append, bodyParts_flatten hlength hfull, List.flatten_cons,
    List.flatten_cons, List.flatten_nil, List.append_nil]

end finishing

end layout

section building

variable {context : FdContext} {world : World} {decisions : List JointDecision}

/-- What the last step of the pure builder says about its writer. -/
theorem finishReplay_eq_ok {accepted audits : Nat} {sizes : ReplaySizes} {save bytes : List UInt8}
    {t : ReplayWriter} (h : finishReplay accepted audits sizes save t = .ok bytes) :
    t.Full accepted audits sizes ∧ bytes =
      replayBody accepted audits sizes (replayPayloads accepted audits sizes save t) ++
        (fdReplayFooterDigest (replayBody accepted audits sizes
          (replayPayloads accepted audits sizes save t))).toList := by
  obtain ⟨hcursors, hbytes⟩ := failIf_bind_eq_ok.mp h
  simp only [not_or, not_not] at hcursors
  obtain ⟨hrecords, haudits, hcheckpoints⟩ := hcursors
  exact ⟨⟨Nat.add_left_cancel hrecords, Nat.add_left_cancel haudits,
    Nat.add_left_cancel hcheckpoints⟩, (Except.ok.inj hbytes).symm⟩

/-- What has been measured are the counts of the transcript and the sizes that follow. -/
theorem measured_eq (hsound : world.Sound context) {s : Ledger} {accepted audits : Nat}
    {sizes : ReplaySizes}
    (h : (measureReplay context world decisions s).1 = .ok (accepted, audits, sizes)) :
    Buildable context world decisions ∧
      accepted = (transcript world 0 decisions).records.length ∧
      audits = (transcript world 0 decisions).audits.length ∧
      sizes = replaySizesOf world accepted audits := by
  obtain ⟨hbuildable, hm⟩ := measureReplay_eq_ok hsound h
  cases hm
  exact ⟨hbuildable, rfl, rfl, rfl⟩

/-- The pure second simulation of what has been measured fills its regions. -/
theorem played_full (hsound : world.Sound context) (hbuildable : Buildable context world decisions)
    {accepted audits : Nat} (haccepted : accepted = (transcript world 0 decisions).records.length)
    (haudits : audits = (transcript world 0 decisions).audits.length) :
    ∃ t, forEach decisions.zipIdx
        (writeAttempt context (replaySizesOf world accepted audits).saveSize)
        ⟨world.reloaded, [], [], [], 0⟩ = .ok t ∧
      t.Full accepted audits (replaySizesOf world accepted audits) ∧
      finishReplay accepted audits (replaySizesOf world accepted audits) (saveBytes world) t =
        .ok (replayFile world (transcript world 0 decisions).records
          (transcript world 0 decisions).audits) := by
  have hwritten := writeReplay_eq hsound hbuildable
  rw [← haccepted, ← haudits] at hwritten
  obtain ⟨t, hrun, hfinish⟩ := bind_eq_ok.mp hwritten
  exact ⟨t, hrun, (finishReplay_eq_ok hfinish).1, hfinish⟩

theorem layout_last (world : World) (accepted audits : Nat) :
    (replayLayout accepted audits (replaySizesOf world accepted audits)).last + 32 =
      (replaySizesOf world accepted audits).total := by
  change 8 + 16 + 28 + 32 + 16 + saveSize world + 32 + 16 + (8 + accepted * 228) + 32 + 16 +
    (4 + audits * 328) + 32 + 16 + (4 + accepted / 1024 * (16 + saveSize world)) + 32 + 32 =
      replayTotal world accepted audits
  rw [replayTotal, Nat.add_comm (saveSize world) 16]
  omega

theorem counted_bind {α β : Type} (call : StateM Ledger α) (f : α → StateT Ledger Option β)
    (s : Ledger) : (counted call >>= f) s = f (call s).1 (call s).2 := rfl

theorem lift_bind {α β : Type} {o : Option α} {a : α} (h : o = some a)
    (f : α → StateT Ledger Option β) (s : Ledger) :
    ((liftM o : StateT Ledger Option α) >>= f) s = f a s := by
  subst h
  rfl

/-- In its buffer the builder does what the pure one returns; on a failure it reports no bytes. -/
theorem fdReplayBuildIntoAt_eq (hsound : world.Sound context) {buffer : List UInt8}
    {capacity : Nat} (hbuffer : capacity ≤ buffer.length) (s : Ledger) :
    ∃ filled, fdReplayBuildIntoAt context world decisions buffer capacity s =
        some (filled, (fdReplayBuildInto context world decisions capacity s).2) ∧
      (∀ failure, (fdReplayBuildInto context world decisions capacity s).1 = .error failure →
        filled.result = .error failure) ∧
      ∀ bytes, (fdReplayBuildInto context world decisions capacity s).1 = .ok bytes →
        filled = ⟨.ok (), bytes.length, bytes ++ buffer.drop bytes.length⟩ := by
  unfold fdReplayBuildIntoAt fdReplayBuildInto
  rw [counted_bind]
  simp only [run_bind]
  cases hmeasured : (measureReplay context world decisions s).1 with
  | error failure =>
      refine ⟨⟨.error failure, 0, buffer⟩, rfl, ?_, ?_⟩
      · rintro _ ⟨⟩
        rfl
      · intro bytes hok
        cases hok
  | ok m =>
      obtain ⟨accepted, audits, sizes⟩ := m
      obtain ⟨hbuildable, haccepted, haudits, rfl⟩ := measured_eq hsound hmeasured
      by_cases hshort : capacity < (replaySizesOf world accepted audits).total
      · simp only [if_pos hshort]
        refine ⟨⟨.error replayBufferFailure, 0, buffer⟩, rfl, ?_, ?_⟩
        · rintro _ ⟨⟩
          rfl
        · intro bytes hok
          cases hok
      · have hsave := writeTickZeroSave_eq hsound hbuildable.fits accepted audits
        have hbytes : (saveBytes world).length = saveSize world := saveBytes_length world
        have hlast := layout_last world accepted audits
        have hdrawn := drawLayout_eq hsound.bounded
          (fdWorldSave_eq hsound.bounded hbuildable.fits le_rfl) hbytes hlast
          ((not_lt.mp hshort).trans hbuffer)
        simp only [if_neg hshort, hsave]
        rw [lift_bind hdrawn]
        simp only [counted_bind, run_bind]
        cases hclone : (fdWorldCloneViaSave context world
            (measureReplay context world decisions s).2).1 with
        | error failure =>
            refine ⟨⟨.error failure, 0, _⟩, rfl, ?_, ?_⟩
            · rintro _ ⟨⟩
              rfl
            · intro bytes hok
              cases hok
        | ok work =>
            obtain ⟨rfl, -, -⟩ := clone_eq_of_ok hsound hclone
            have hwritten := writeReplay_eq hsound hbuildable
            rw [← haccepted, ← haudits] at hwritten
            obtain ⟨t, hrun, hfull, hfinish⟩ := played_full hsound hbuildable haccepted haudits
            obtain ⟨-, hfile⟩ := finishReplay_eq_ok hfinish
            have hplay : playInto context decisions accepted audits
                (replaySizesOf world accepted audits) world.reloaded
                (drawnParts accepted audits (replaySizesOf world accepted audits) (saveBytes world)
                  (buffer.drop (replaySizesOf world accepted audits).total)).flatten = _ :=
              playInto_eq hrun hfull hsound.reloaded.bounded hbytes hlast
            have htotal : (replayFile world (transcript world 0 decisions).records
                (transcript world 0 decisions).audits).length =
                  (replaySizesOf world accepted audits).total := by
              rw [replayFile_length (transcript_messages hsound.valid 0 decisions), haccepted,
                haudits]
              rfl
            simp only
            rw [lift_bind hplay]
            refine ⟨_, rfl, fun failure herror => ?_, fun bytes hok => ?_⟩
            · have hfailed := hwritten.symm.trans herror
              cases hfailed
            · obtain rfl := Except.ok.inj (hwritten.symm.trans hok)
              rw [htotal, ← List.append_assoc, ← hfile]

theorem load_front {bytes behind : List UInt8} :
    load (bytes ++ behind) 0 bytes.length = some bytes := by
  rw [load, if_pos (by rw [List.length_append]; omega), List.drop_zero, List.take_left]

theorem store_front {buffer bytes : List UInt8} (h : bytes.length ≤ buffer.length) :
    store buffer 0 bytes = some (bytes ++ buffer.drop bytes.length) := by
  rw [store, if_pos (by omega), List.take_zero, List.nil_append, Nat.zero_add]

theorem built_bind {α β : Type} {call : StateT Ledger Option α} {s s' : Ledger} {a : α}
    (h : call s = some (a, s')) (f : α → StateT Ledger Option β) : (call >>= f) s = f a s' := by
  change (call s).bind (fun x => f x.1 x.2) = _
  rw [h]
  rfl

/-- In the caller's memory, `fd_replay_build` does what the pure builder returns: on success the
file stands at the front and the rest is as it was, on failure nothing has changed. -/
theorem fdReplayBuildAt_eq (hsound : world.Sound context)
    (temporary : (size : Nat) → List.Vector UInt8 size) {buffer : List UInt8} {capacity : Nat}
    (hbuffer : capacity ≤ buffer.length) (s : Ledger) :
    fdReplayBuildAt context temporary world decisions buffer capacity s =
      some (match (fdReplayBuild context world decisions capacity s).1 with
        | .error failure => ⟨.error failure, 0, buffer⟩
        | .ok bytes => ⟨.ok (), bytes.length, bytes ++ buffer.drop bytes.length⟩,
        (fdReplayBuild context world decisions capacity s).2) := by
  unfold fdReplayBuildAt fdReplayBuild
  rw [counted_bind]
  simp only [run_bind]
  cases hsize : (fdReplayBuildSize context world decisions s).1 with
  | error failure => rfl
  | ok required =>
      by_cases hshort : capacity < required
      · simp only [if_pos hshort]
        rfl
      · simp only [if_neg hshort]
        rw [counted_bind]
        simp only [run_bind]
        cases halloc : (fdContextAlloc context (UInt64.ofNat required)
            (fdReplayBuildSize context world decisions s).2).1 with
        | false => rfl
        | true =>
            have htemporary : required ≤ (temporary required).toList.length :=
              (List.Vector.toList_length _).ge
            obtain ⟨filled, hbuilt, herror, hok⟩ : ∃ filled, fdReplayBuildIntoAt context world
                decisions (temporary required).toList required _ = some (filled, _) ∧ _ ∧ _ :=
              fdReplayBuildIntoAt_eq hsound htemporary (fdContextAlloc context
                (UInt64.ofNat required) (fdReplayBuildSize context world decisions s).2).2
            simp only [Bool.not_true, Bool.false_eq_true, if_false]
            rw [built_bind hbuilt]
            cases hresult : (fdReplayBuildInto context world decisions required
                (fdContextAlloc context (UInt64.ofNat required)
                  (fdReplayBuildSize context world decisions s).2).2).1 with
            | error failure =>
                rw [herror failure hresult]
                simp only [run_bind, hresult]
                rfl
            | ok bytes =>
                obtain rfl := hok bytes hresult
                simp only [run_bind, run_pure, hresult, ok_bind]
                by_cases hrequired : bytes.length ≠ required
                · rw [failIf_true hrequired, if_pos hrequired]
                  rfl
                · obtain rfl := not_not.mp hrequired
                  rw [failIf_false hrequired, if_neg hrequired, lift_bind load_front,
                    lift_bind (store_front (by omega))]
                  rfl

end building

end FrontierDirectorate
