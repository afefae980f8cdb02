import Mathlib
import FrontierDirectorate.Core.ReplayWorlds

/-!
# What the builder writes

Classification counts the entries of the transcript, the second simulation writes
them, and the file is their wire form between the tick-zero save and the
checkpoints.
-/
namespace FrontierDirectorate
open Accounting ByteCodec Checks

section reloaded

variable {world : World}

theorem valid_reloaded (hvalid : world.Valid) : world.reloaded.Valid :=
  SameMap.valid_of_valid (v := world) ⟨rfl, rfl, rfl, rfl, rfl⟩ rfl rfl rfl hvalid

/-- The attempts fare the same on the reloaded world. -/
theorem transcript_reloaded (hvalid : world.Valid) (index : Nat) (decisions : List JointDecision) :
    transcript world.reloaded index decisions =
      { transcript world index decisions with
        world := (transcript world index decisions).world.reloaded } := by
  induction decisions generalizing world index with
  | nil => rfl
  | cons decision rest ih =>
      have hreloaded := valid_reloaded hvalid
      cases h : stepRefusal world decision with
      | some failure =>
          have h' : stepRefusal world.reloaded decision = some failure := h
          rw [transcript_of_refused hreloaded h', transcript_of_refused hvalid h,
            ih hvalid (index + 1)]
          rfl
      | none =>
          have h' : stepRefusal world.reloaded decision = none := h
          rw [transcript_of_accepted hreloaded h', transcript_of_accepted hvalid h,
            stepWorld_reloaded, ih (valid_stepWorld hvalid) (index + 1)]
          rfl

end reloaded

section classification

variable {world : World}

/-- What classification counts, and when it gives up. -/
theorem classify_eq_ok_iff (hvalid : world.Valid) (index accepted : Nat) {audits : Nat}
    (haudits : audits ≤ uint32Max) (decisions : List JointDecision) (s : Classified) :
    forEach decisions classifyAttempt ⟨world, accepted, audits⟩ = .ok s ↔
      s = ⟨(transcript world index decisions).world,
          accepted + (transcript world index decisions).records.length,
          audits + (transcript world index decisions).audits.length⟩ ∧
        audits + (transcript world index decisions).audits.length ≤ uint32Max := by
  induction decisions generalizing world index accepted audits with
  | nil =>
      rw [forEach_nil]
      constructor
      · intro h
        exact ⟨(Except.ok.inj h).symm, haudits⟩
      · rintro ⟨rfl, -⟩
        rfl
  | cons decision rest ih =>
      rw [forEach_cons]
      cases h : stepRefusal world decision with
      | some failure =>
          have hauditable := (stepRefusal_auditable h).code
          rw [transcript_of_refused hvalid h]
          simp only [classifyAttempt, fdWorldStep_of_valid hvalid, h, hauditable, if_true,
            Transcript.reject, List.length_cons]
          by_cases hfull : audits = uint32Max
          · rw [if_pos hfull, error_bind]
            constructor
            · intro hfailed
              cases hfailed
            · rintro ⟨-, hle⟩
              omega
          · rw [if_neg hfull, ok_bind, ih hvalid (index + 1) accepted (by omega)]
            rw [Nat.add_right_comm, Nat.add_assoc]
      | none =>
          rw [transcript_of_accepted hvalid h]
          simp only [classifyAttempt, fdWorldStep_of_valid hvalid, h, Transcript.accept,
            List.length_cons, ok_bind]
          rw [ih (valid_stepWorld hvalid) (index + 1) (accepted + 1) haudits]
          rw [Nat.add_right_comm accepted 1, Nat.add_assoc accepted]

end classification

section writer

variable {context : FdContext} {origin : World}

/-- A checkpoint as the builder writes it. -/
def encodeCheckpoint (accepted : Nat) (world : World) : List UInt8 :=
  fdStoreU64Le (UInt64.ofNat accepted) ++
    (fdStoreU64Le (UInt64.ofNat (saveSize world)) ++ saveBytes world)

/-- The checkpoints written while `n` attempts are accepted after the first `accepted` ones. -/
def checkpointsAfter (origin : World) (accepted n : Nat) : List UInt8 :=
  ((List.range' (accepted + 1) n).filter fun k => k % fdReplayCheckpointInterval = 0).flatMap
    fun k => encodeCheckpoint k (origin.after k)

theorem stagingMismatch_accepted (world : World) (decision : JointDecision) :
    ¬ stagingMismatch (acceptedResult world decision) := by
  have hhash : fdHashJointDecisionInternal (recordOf (acceptedResult world decision)).decision =
      (acceptedResult world decision).stagedDecisionSha256 := by
    change fdHashJointDecisionInternal decision.staged = fdHashJointDecisionInternal decision
    rw [JointDecision.staged, fdHashJointDecisionInternal, fdHashJointDecisionInternal,
      jointDecisionPieces, jointDecisionPieces]
    simp only [List.Vector.toList_map, List.flatMap_map]
    rfl
  unfold stagingMismatch
  rw [hhash]
  simp only [not_or, not_not]
  refine ⟨rfl, rfl, ?_, trivial, rfl⟩
  change ¬ (551 : UInt32) ≤ 550
  decide

/-- The second simulation writes the transcript and the checkpoints. -/
theorem writeAttempts_eq (hvalid : origin.Valid)
    (hsize : saveSize origin ≤ context.maxFileBytes.toNat) (index accepted : Nat)
    (decisions : List JointDecision) (records audits checkpoints : List UInt8) :
    forEach (decisions.zipIdx index) (writeAttempt context (saveSize origin))
      ⟨origin.after accepted, records, audits, checkpoints, accepted⟩ =
    .ok ⟨(transcript (origin.after accepted) index decisions).world,
      records ++ (transcript (origin.after accepted) index decisions).records.flatMap
        fdEncodeReplayRecord,
      audits ++ (transcript (origin.after accepted) index decisions).audits.flatMap
        ReplayAudit.encode,
      checkpoints ++ checkpointsAfter origin accepted
        (transcript (origin.after accepted) index decisions).records.length,
      accepted + (transcript (origin.after accepted) index decisions).records.length⟩ := by
  have hafter : ∀ n, (origin.after n).Valid := by
    intro n
    induction n with
    | zero => exact hvalid
    | succ n ih =>
        rw [World.after_succ]
        exact valid_stepWorld ih
  induction decisions generalizing index accepted records audits checkpoints with
  | nil => simp [checkpointsAfter, transcript]
  | cons decision rest ih =>
      rw [List.zipIdx_cons, forEach_cons]
      cases h : stepRefusal (origin.after accepted) decision with
      | some failure =>
          have hauditable := (stepRefusal_auditable h).code
          rw [transcript_of_refused (hafter accepted) h]
          simp only [writeAttempt, fdWorldStep_of_valid (hafter accepted), h, hauditable, if_true,
            ok_bind, Transcript.reject, List.flatMap_cons]
          rw [ih (index + 1) accepted, List.append_assoc]
          rfl
      | none =>
          have haccepts := (stepRefusal_eq_none_iff (hafter accepted)).mp h
          have hstaging := stagingMismatch_accepted (origin.after accepted) decision
          have hrecord := recordOf_accepted haccepts
          have hnext : stepWorld (origin.after accepted) = origin.after (accepted + 1) :=
            (origin.after_succ accepted).symm
          rw [transcript_of_accepted (hafter accepted) h, hnext]
          simp only [writeAttempt, fdWorldStep_of_valid (hafter accepted), h,
            Transcript.accept, List.flatMap_cons, List.length_cons]
          rw [failIf_bind_of_not hstaging, hrecord, hnext]
          have hcheckpoint : writeCheckpoint context (saveSize origin)
              ⟨origin.after (accepted + 1), records ++
                fdEncodeReplayRecord (origin.after accepted).passRecord, audits, checkpoints,
                accepted + 1⟩ =
              .ok ⟨origin.after (accepted + 1), records ++
                fdEncodeReplayRecord (origin.after accepted).passRecord, audits,
                checkpoints ++ checkpointsAfter origin accepted 1, accepted + 1⟩ := by
            unfold writeCheckpoint checkpointsAfter
            by_cases hinterval : (accepted + 1) % fdReplayCheckpointInterval = 0
            · have hbounded := ((origin.after (accepted + 1)).valid_iff.mp
                (hafter (accepted + 1))).bounded
              have hsave : fdWorldSave context (origin.after (accepted + 1)) (saveSize origin) = _ :=
                fdWorldSave_eq hbounded (by rw [saveSize_after]; exact hsize)
                  (saveSize_after origin _).le
              rw [if_pos hinterval, hsave, ok_bind, failIf_bind_of_not]
              · simp [hinterval, encodeCheckpoint, saveSize_after]
              · rw [saveBytes_length, saveSize_after, not_not]
            · rw [if_neg hinterval]
              simp [hinterval]
          have hsplit : checkpointsAfter origin accepted
              ((transcript (origin.after (accepted + 1)) (index + 1) rest).records.length + 1) =
              checkpointsAfter origin accepted 1 ++ checkpointsAfter origin (accepted + 1)
                (transcript (origin.after (accepted + 1)) (index + 1) rest).records.length := by
            rw [checkpointsAfter, checkpointsAfter, checkpointsAfter, List.range'_succ,
              ← List.flatMap_append, ← List.filter_append]
            rfl
          rw [hcheckpoint, ok_bind, ih (index + 1) (accepted + 1), hsplit]
          rw [Nat.add_right_comm accepted 1, Nat.add_assoc accepted]
          simp only [List.append_assoc]

end writer

section sizes

variable {context : FdContext} {world : World} {accepted audits : Nat} {sizes : ReplaySizes}

/-- The byte count of a replay with so many entries. -/
def replayTotal (world : World) (accepted audits : Nat) : Nat :=
  8 + (28 + saveSize world + (accepted * 228 + 8) + (audits * 328 + 4) +
    (accepted / 1024 * (saveSize world + 16) + 4)) + 240 + 32

/-- The announced sizes of a replay with so many entries. -/
def replaySizesOf (world : World) (accepted audits : Nat) : ReplaySizes :=
  ⟨replayTotal world accepted audits, saveSize world, accepted / 1024⟩

theorem fdU64Mul_eq {a b : Nat} (h : a * b ≤ uint64Max) : fdU64Mul a b = some (a * b) := by
  refine if_neg ?_
  rintro ⟨hb, hlt⟩
  have hover : uint64Max < a * b := (Nat.div_lt_iff_lt_mul (Nat.pos_of_ne_zero hb)).mp hlt
  omega

theorem fdReplaySizeInternal_eq_some (h : world.Bounded)
    (hsizes : fdReplaySizeInternal context world accepted audits = some sizes) :
    accepted / 1024 ≤ uint32Max ∧ sizes = replaySizesOf world accepted audits := by
  unfold fdReplaySizeInternal at hsizes
  simp only at hsizes
  split at hsizes
  · cases hsizes
  · next hcheckpoints =>
      obtain ⟨save, hsave, hsizes⟩ := Option.bind_eq_some_iff.mp hsizes
      obtain ⟨records, hrecords, hsizes⟩ := Option.bind_eq_some_iff.mp hsizes
      obtain ⟨records', hrecords', hsizes⟩ := Option.bind_eq_some_iff.mp hsizes
      obtain ⟨entries, hentries, hsizes⟩ := Option.bind_eq_some_iff.mp hsizes
      obtain ⟨entries', hentries', hsizes⟩ := Option.bind_eq_some_iff.mp hsizes
      obtain ⟨checkpoint, hcheckpoint, hsizes⟩ := Option.bind_eq_some_iff.mp hsizes
      obtain ⟨checkpoints, hproduct, hsizes⟩ := Option.bind_eq_some_iff.mp hsizes
      obtain ⟨checkpoints', hsum, hsizes⟩ := Option.bind_eq_some_iff.mp hsizes
      obtain ⟨p1, hp1, hsizes⟩ := Option.bind_eq_some_iff.mp hsizes
      obtain ⟨p2, hp2, hsizes⟩ := Option.bind_eq_some_iff.mp hsizes
      obtain ⟨p3, hp3, hsizes⟩ := Option.bind_eq_some_iff.mp hsizes
      obtain ⟨p4, hp4, hsizes⟩ := Option.bind_eq_some_iff.mp hsizes
      obtain ⟨t1, ht1, hsizes⟩ := Option.bind_eq_some_iff.mp hsizes
      obtain ⟨t2, ht2, hsizes⟩ := Option.bind_eq_some_iff.mp hsizes
      obtain ⟨t3, ht3, hsizes⟩ := Option.bind_eq_some_iff.mp hsizes
      have hsaved : fdWorldSaveSize context world = .ok save := by
        cases hresult : fdWorldSaveSize context world with
        | error failure =>
            rw [hresult] at hsave
            cases hsave
        | ok size =>
            rw [hresult] at hsave
            exact congrArg Except.ok (Option.some.inj hsave)
      obtain ⟨rfl, -⟩ := (fdWorldSaveSize_eq_ok_iff h).mp hsaved
      obtain rfl := fdU64Mul_eq_some hrecords
      obtain ⟨rfl, -⟩ := fdU64Add_eq_some hrecords'
      obtain rfl := fdU64Mul_eq_some hentries
      obtain ⟨rfl, -⟩ := fdU64Add_eq_some hentries'
      obtain ⟨rfl, -⟩ := fdU64Add_eq_some hcheckpoint
      obtain rfl := fdU64Mul_eq_some hproduct
      obtain ⟨rfl, -⟩ := fdU64Add_eq_some hsum
      obtain ⟨rfl, -⟩ := fdU64Add_eq_some hp1
      obtain ⟨rfl, -⟩ := fdU64Add_eq_some hp2
      obtain ⟨rfl, -⟩ := fdU64Add_eq_some hp3
      obtain ⟨rfl, -⟩ := fdU64Add_eq_some hp4
      obtain ⟨rfl, -⟩ := fdU64Add_eq_some ht1
      obtain ⟨rfl, -⟩ := fdU64Add_eq_some ht2
      obtain ⟨rfl, -⟩ := fdU64Add_eq_some ht3
      exact ⟨not_lt.mp hcheckpoints, (Option.some.inj hsizes).symm⟩

theorem fdReplaySizeInternal_eq (h : world.Bounded)
    (hmax : replayTotal world accepted audits ≤ context.maxFileBytes.toNat)
    (hcheckpoints : accepted / 1024 ≤ uint32Max) :
    fdReplaySizeInternal context world accepted audits =
      some (replaySizesOf world accepted audits) := by
  have hlt := context.maxFileBytes.toNat_lt
  have hsave : fdWorldSaveSize context world = .ok (saveSize world) :=
    fdWorldSaveSize_eq h (by unfold replayTotal at hmax; omega)
  have hbound : replayTotal world accepted audits ≤ uint64Max := by
    unfold uint64Max
    omega
  unfold replayTotal at hbound
  unfold fdReplaySizeInternal
  simp only
  rw [if_neg (not_lt.mpr hcheckpoints), hsave]
  generalize hproduct : accepted / 1024 * (saveSize world + 16) = product at hbound
  rw [show fdReplayRecordWireSize = 228 from rfl, show fdReplayAuditWireSize = 328 from rfl,
    show fdReplayCheckpointInterval = 1024 from rfl, show fdReplaySectionCount * 48 = 240 from rfl]
  simp only [Except.toOption, Option.bind_eq_bind, Option.bind_some]
  rw [fdU64Mul_eq (by omega), Option.bind_some, fdU64Add_eq (by omega), Option.bind_some,
    fdU64Mul_eq (by omega), Option.bind_some, fdU64Add_eq (by omega), Option.bind_some,
    fdU64Add_eq (by omega), Option.bind_some, fdU64Mul_eq (by omega), hproduct, Option.bind_some,
    fdU64Add_eq (by omega), Option.bind_some, fdU64Add_eq (by omega), Option.bind_some,
    fdU64Add_eq (by omega), Option.bind_some, fdU64Add_eq (by omega), Option.bind_some,
    fdU64Add_eq (by omega), Option.bind_some, fdU64Add_eq (by omega), Option.bind_some,
    fdU64Add_eq (by omega), Option.bind_some, fdU64Add_eq (by omega), Option.bind_some]
  rw [replaySizesOf, replayTotal, hproduct]

/-- When the sizes of a replay stay within the limits, and what they are. -/
theorem replaySizesWithin_eq_ok_iff (h : world.Bounded) :
    replaySizesWithin context world accepted audits = .ok sizes ↔
      accepted / 1024 ≤ uint32Max ∧
        replayTotal world accepted audits ≤ context.maxFileBytes.toNat ∧
        sizes = replaySizesOf world accepted audits := by
  unfold replaySizesWithin
  constructor
  · intro hsizes
    cases hinternal : fdReplaySizeInternal context world accepted audits with
    | none =>
        rw [hinternal] at hsizes
        cases hsizes
    | some sizes' =>
        obtain ⟨hcheckpoints, rfl⟩ := fdReplaySizeInternal_eq_some h hinternal
        rw [hinternal] at hsizes
        simp only at hsizes
        split at hsizes
        · cases hsizes
        · next hmax => exact ⟨hcheckpoints, not_lt.mp hmax, (Except.ok.inj hsizes).symm⟩
  · rintro ⟨hcheckpoints, hmax, rfl⟩
    rw [fdReplaySizeInternal_eq h hmax hcheckpoints]
    exact if_neg (not_lt.mpr hmax)

end sizes

section file

variable {context : FdContext} {world : World}

/-- The five frames of a replay. -/
def replayFrames (world : World) (records : List ReplayRecord) (audits : List ReplayAudit) :
    List Frame :=
  [⟨1, fdSectionCritical,
      replayManifestPayload records.length (records.length / 1024) audits.length⟩,
    ⟨2, fdSectionCritical, saveBytes world⟩,
    ⟨3, fdSectionCritical,
      fdStoreU64Le (UInt64.ofNat records.length) ++ records.flatMap fdEncodeReplayRecord⟩,
    ⟨4, fdSectionCritical,
      fdStoreU32Le (UInt32.ofNat audits.length) ++ audits.flatMap ReplayAudit.encode⟩,
    ⟨5, fdSectionCritical, fdStoreU32Le (UInt32.ofNat (records.length / 1024)) ++
      checkpointsAfter world.reloaded 0 records.length⟩]

/-- Everything before the footer. -/
def replayFileBody (world : World) (records : List ReplayRecord) (audits : List ReplayAudit) :
    List UInt8 := fdReplayMagic ++ (replayFrames world records audits).flatMap Frame.bytes

/-- The file of a transcript. -/
def replayFile (world : World) (records : List ReplayRecord) (audits : List ReplayAudit) :
    List UInt8 :=
  replayFileBody world records audits ++
    (fdReplayFooterDigest (replayFileBody world records audits)).toList

theorem flatMap_encodeReplayRecord_length (records : List ReplayRecord) :
    (records.flatMap fdEncodeReplayRecord).length = records.length * 228 := by
  induction records with
  | nil => rfl
  | cons record records ih =>
      rw [List.flatMap_cons, List.length_append, ih, fdEncodeReplayRecord_length, List.length_cons,
        Nat.succ_mul, Nat.add_comm]

theorem flatMap_encodeAudit_length {audits : List ReplayAudit}
    (h : ∀ audit ∈ audits, audit.message.length < 160) :
    (audits.flatMap ReplayAudit.encode).length = audits.length * 328 := by
  induction audits with
  | nil => rfl
  | cons audit audits ih =>
      rw [List.forall_mem_cons] at h
      rw [List.flatMap_cons, List.length_append, ih h.2, ReplayAudit.encode_length h.1,
        List.length_cons, Nat.succ_mul, Nat.add_comm]

/-- The multiples of the interval up to a position. -/
theorem interval_positions (n : Nat) : (List.range' 1 n).filter (fun k => k % 1024 = 0) =
    (List.range' 1 (n / 1024)).map (· * 1024) := by
  induction n with
  | zero => rfl
  | succ n ih =>
      rw [List.range'_1_concat, List.filter_append, ih]
      by_cases h : (1 + n) % 1024 = 0
      · have hdiv : (n + 1) / 1024 = n / 1024 + 1 := by omega
        have hlast : (1 + n / 1024) * 1024 = 1 + n := by omega
        rw [hdiv, List.range'_1_concat, List.map_append, List.map_cons, List.map_nil, hlast]
        simp [h]
      · have hdiv : (n + 1) / 1024 = n / 1024 := by omega
        rw [hdiv]
        simp [h]

/-- The checkpoints of a whole replay. -/
theorem checkpointsAfter_eq (origin : World) (n : Nat) : checkpointsAfter origin 0 n =
    (List.range' 1 (n / 1024)).flatMap fun k => encodeCheckpoint (k * 1024) (origin.after (k * 1024)) := by
  rw [checkpointsAfter]
  have hpositions := interval_positions n
  rw [Nat.zero_add, hpositions, List.flatMap_map]

theorem encodeCheckpoint_length (accepted : Nat) (world : World) :
    (encodeCheckpoint accepted world).length = 16 + saveSize world := by
  rw [encodeCheckpoint, List.length_append, List.length_append, saveBytes_length,
    fdStoreU64Le_length, fdStoreU64Le_length]
  omega

theorem checkpointsAfter_length (origin : World) (n : Nat) :
    (checkpointsAfter origin 0 n).length = n / 1024 * (16 + saveSize origin) := by
  rw [checkpointsAfter_eq, List.length_flatMap]
  simp only [encodeCheckpoint_length, saveSize_after]
  simp

theorem transcript_messages (hvalid : world.Valid) (index : Nat) (decisions : List JointDecision) :
    ∀ audit ∈ (transcript world index decisions).audits, audit.message.length < 160 := by
  induction decisions generalizing world index with
  | nil => exact fun audit h => by cases h
  | cons decision rest ih =>
      cases h : stepRefusal world decision with
      | some failure =>
          rw [transcript_of_refused hvalid h]
          refine List.forall_mem_cons.mpr ⟨?_, ih hvalid (index + 1)⟩
          have hauditable := stepRefusal_auditable h
          change (diagMessage failure).length < 160
          rw [hauditable.diagMessage_eq]
          exact hauditable.short
      | none =>
          rw [transcript_of_accepted hvalid h]
          exact ih (valid_stepWorld hvalid) (index + 1)

theorem replayFileBody_length {records : List ReplayRecord} {audits : List ReplayAudit}
    (h : ∀ audit ∈ audits, audit.message.length < 160) :
    (replayFileBody world records audits).length + 32 =
      replayTotal world records.length audits.length := by
  have hmanifest : (replayManifestPayload records.length (records.length / 1024)
      audits.length).length = 28 := rfl
  have hmagic : fdReplayMagic.length = 8 := rfl
  have hcheckpoints : saveSize world.reloaded = saveSize world := rfl
  simp only [replayFileBody, replayFrames, List.flatMap_cons, List.flatMap_nil, List.append_nil,
    List.length_append, Frame.bytes_length, saveBytes_length, fdStoreU64Le_length,
    fdStoreU32Le_length, flatMap_encodeReplayRecord_length, flatMap_encodeAudit_length h,
    checkpointsAfter_length, hmanifest, hmagic, hcheckpoints, replayTotal,
    Nat.add_comm 16 (saveSize world)]
  omega

theorem replayFile_length {records : List ReplayRecord} {audits : List ReplayAudit}
    (h : ∀ audit ∈ audits, audit.message.length < 160) :
    (replayFile world records audits).length = replayTotal world records.length audits.length := by
  rw [replayFile, List.length_append, List.Vector.toList_length, replayFileBody_length h]

end file

section build

variable {context : FdContext} {world : World} {decisions : List JointDecision} {s : Ledger}

/-- The limits a build has to keep. -/
structure Buildable (context : FdContext) (world : World) (decisions : List JointDecision) :
    Prop where
  tickZero : world.tick = 0
  count : decisions.length ≤ context.maxFileBytes.toNat / 228
  clock : decisions.length ≤ 768614336404564650
  audits : (transcript world 0 decisions).audits.length ≤ uint32Max
  checkpoints : (transcript world 0 decisions).records.length / 1024 ≤ uint32Max
  total : replayTotal world (transcript world 0 decisions).records.length
    (transcript world 0 decisions).audits.length ≤ context.maxFileBytes.toNat

/-- What the two measuring passes announce for a buildable list. -/
def measureOf (world : World) (decisions : List JointDecision) : Nat × Nat × ReplaySizes :=
  let t := transcript world 0 decisions
  (t.records.length, t.audits.length, replaySizesOf world t.records.length t.audits.length)

theorem clock_bound : uint64Max / fdOperationalTicks.toNat = 768614336404564650 := by decide

theorem fdReplayClassifyAttempts_eq_ok (hsound : world.Sound context) {accepted audits : Nat}
    (h : (fdReplayClassifyAttempts context world decisions s).1 = .ok (accepted, audits)) :
    decisions.length ≤ context.maxFileBytes.toNat / 228 ∧ decisions.length ≤ 768614336404564650 ∧
      (transcript world 0 decisions).audits.length ≤ uint32Max ∧
      accepted = (transcript world 0 decisions).records.length ∧
      audits = (transcript world 0 decisions).audits.length := by
  unfold fdReplayClassifyAttempts at h
  rw [clock_bound] at h
  split at h
  · cases h
  · next hbounds =>
      simp only [not_or, not_lt] at hbounds
      simp only [run_bind] at h
      cases hclone : (fdWorldCloneViaSave context world s).1 with
      | error failure =>
          simp only [hclone, run_pure] at h
          cases h
      | ok work =>
          obtain ⟨rfl, -, -⟩ := clone_eq_of_ok hsound hclone
          simp only [hclone, run_bind, run_pure] at h
          have hvalid := valid_reloaded hsound.valid
          cases hloop : forEach decisions classifyAttempt ⟨world.reloaded, 0, 0⟩ with
          | error failure =>
              rw [hloop] at h
              cases h
          | ok counted =>
              obtain ⟨rfl, haudits⟩ := (classify_eq_ok_iff hvalid 0 0 (Nat.zero_le _) decisions
                counted).mp hloop
              rw [hloop] at h
              cases h
              rw [transcript_reloaded hsound.valid, Nat.zero_add] at haudits
              rw [transcript_reloaded hsound.valid, Nat.zero_add, Nat.zero_add]
              exact ⟨hbounds.1, hbounds.2, haudits, rfl, rfl⟩

theorem measureReplay_eq_ok (hsound : world.Sound context) {m : Nat × Nat × ReplaySizes}
    (h : (measureReplay context world decisions s).1 = .ok m) :
    Buildable context world decisions ∧ m = measureOf world decisions := by
  unfold measureReplay at h
  split at h
  · cases h
  · next htick =>
      simp only [run_bind] at h
      cases hclassified : (fdReplayClassifyAttempts context world decisions s).1 with
      | error failure =>
          simp only [hclassified, run_pure] at h
          cases h
      | ok counts =>
          obtain ⟨accepted, audits⟩ := counts
          simp only [hclassified, run_pure] at h
          obtain ⟨hcount, hclock, haudits, rfl, rfl⟩ :=
            fdReplayClassifyAttempts_eq_ok hsound hclassified
          cases hsizes : replaySizesWithin context world
              (transcript world 0 decisions).records.length
              (transcript world 0 decisions).audits.length with
          | error failure =>
              rw [hsizes] at h
              cases h
          | ok sizes =>
              obtain ⟨hcheckpoints, htotal, rfl⟩ :=
                (replaySizesWithin_eq_ok_iff hsound.bounded).mp hsizes
              rw [hsizes] at h
              exact ⟨⟨not_not.mp htick, hcount, hclock, haudits, hcheckpoints, htotal⟩,
                (Except.ok.inj h).symm⟩

/-- A world that fits its replay fits the file limit. -/
theorem Buildable.fits (h : Buildable context world decisions) :
    saveSize world ≤ context.maxFileBytes.toNat := by
  have htotal := h.total
  unfold replayTotal at htotal
  omega

theorem Buildable.clone (h : Buildable context world decisions) (hsound : world.Sound context)
    (hcontext : context.NeverFails) (s : Ledger) :
    (fdWorldCloneViaSave context world s).1 = .ok world.reloaded := by
  refine clone_of_neverFails hcontext hsound h.fits ?_ s
  rw [h.tickZero]
  decide

theorem measureReplay_of_buildable (h : Buildable context world decisions)
    (hsound : world.Sound context) (hcontext : context.NeverFails) (s : Ledger) :
    (measureReplay context world decisions s).1 = .ok (measureOf world decisions) := by
  have hclassified : (fdReplayClassifyAttempts context world decisions s).1 =
      .ok ((transcript world 0 decisions).records.length,
        (transcript world 0 decisions).audits.length) := by
    have hbounds : ¬ (context.maxFileBytes.toNat / fdReplayRecordWireSize < decisions.length ∨
        uint64Max / fdOperationalTicks.toNat < decisions.length) := by
      rw [clock_bound]
      exact not_or.mpr ⟨not_lt.mpr h.count, not_lt.mpr h.clock⟩
    have haudits := h.audits
    have hreloaded := transcript_reloaded hsound.valid 0 decisions
    have hloop := (classify_eq_ok_iff (valid_reloaded hsound.valid) 0 0 (Nat.zero_le uint32Max)
      decisions _).mpr ⟨rfl, by rw [hreloaded, Nat.zero_add]; exact haudits⟩
    unfold fdReplayClassifyAttempts
    rw [if_neg hbounds]
    simp only [run_bind, h.clone hsound hcontext s, run_pure, hloop, hreloaded, Nat.zero_add]
    rfl
  have hsizes : replaySizesWithin context world (transcript world 0 decisions).records.length
      (transcript world 0 decisions).audits.length = _ :=
    (replaySizesWithin_eq_ok_iff hsound.bounded).mpr ⟨h.checkpoints, h.total, rfl⟩
  unfold measureReplay
  rw [if_neg (not_not.mpr h.tickZero)]
  simp only [run_bind, hclassified, run_pure, hsizes]
  rfl

/-- The file that the second pass leaves in its buffer. -/
theorem writeReplay_eq (hsound : world.Sound context) (h : Buildable context world decisions) :
    (forEach decisions.zipIdx (writeAttempt context (saveSize world))
        ⟨world.reloaded, [], [], [], 0⟩ >>=
      finishReplay (transcript world 0 decisions).records.length
        (transcript world 0 decisions).audits.length
        (replaySizesOf world (transcript world 0 decisions).records.length
          (transcript world 0 decisions).audits.length) (saveBytes world)) =
      .ok (replayFile world (transcript world 0 decisions).records
        (transcript world 0 decisions).audits) := by
  have hmessages := transcript_messages hsound.valid 0 decisions
  have hreloaded := transcript_reloaded hsound.valid 0 decisions
  have hwritten : forEach decisions.zipIdx (writeAttempt context (saveSize world.reloaded))
      ⟨world.reloaded.after 0, [], [], [], 0⟩ = _ :=
    writeAttempts_eq (valid_reloaded hsound.valid) h.fits 0 0 decisions [] [] []
  change forEach decisions.zipIdx (writeAttempt context (saveSize world))
    ⟨world.reloaded, [], [], [], 0⟩ = .ok ⟨(transcript world.reloaded 0 decisions).world,
      [] ++ (transcript world.reloaded 0 decisions).records.flatMap fdEncodeReplayRecord,
      [] ++ (transcript world.reloaded 0 decisions).audits.flatMap ReplayAudit.encode,
      [] ++ checkpointsAfter world.reloaded 0 (transcript world.reloaded 0 decisions).records.length,
      0 + (transcript world.reloaded 0 decisions).records.length⟩ at hwritten
  rw [hreloaded] at hwritten
  rw [hwritten, ok_bind]
  generalize (transcript world 0 decisions).records = records at *
  generalize (transcript world 0 decisions).audits = audits at *
  have hlengths : 8 + (records.flatMap fdEncodeReplayRecord).length = recordsLength records.length ∧
      4 + (audits.flatMap ReplayAudit.encode).length = auditsLength audits.length ∧
      4 + (checkpointsAfter world.reloaded 0 records.length).length =
        checkpointsLength (replaySizesOf world records.length audits.length) := by
    rw [flatMap_encodeReplayRecord_length, flatMap_encodeAudit_length hmessages,
      checkpointsAfter_length]
    exact ⟨rfl, rfl, rfl⟩
  have hbody : replayBody records.length audits.length
      (replaySizesOf world records.length audits.length) {
        manifest := replayManifestPayload records.length (records.length / 1024) audits.length
        save := saveBytes world
        records := fdStoreU64Le (UInt64.ofNat records.length) ++ records.flatMap fdEncodeReplayRecord
        audits := fdStoreU32Le (UInt32.ofNat audits.length) ++ audits.flatMap ReplayAudit.encode
        checkpoints := fdStoreU32Le (UInt32.ofNat (records.length / 1024)) ++
          checkpointsAfter world.reloaded 0 records.length } =
      replayFileBody world records audits := by
    have hsave : (replaySizesOf world records.length audits.length).saveSize = saveSize world := rfl
    simp only [replayBody, hsave]
    rw [writeSection_eq 1 _ (by rfl), writeSection_eq 2 _ (saveBytes_length world),
      writeSection_eq 3 _ (by rw [List.length_append, fdStoreU64Le_length]; exact hlengths.1),
      writeSection_eq 4 _ (by rw [List.length_append, fdStoreU32Le_length]; exact hlengths.2.1),
      writeSection_eq 5 _ (by rw [List.length_append, fdStoreU32Le_length]; exact hlengths.2.2)]
    simp only [replayFileBody, replayFrames, List.flatMap_cons, List.flatMap_nil, List.append_nil]
  unfold finishReplay
  simp only [List.nil_append]
  rw [failIf_bind_of_not]
  · change Except.ok (replayBody records.length audits.length
      (replaySizesOf world records.length audits.length) _ ++ _) = _
    rw [replayFile, ← hbody]
    rfl
  · simp only [not_or, not_not]
    exact hlengths

theorem writeTickZeroSave_eq (hsound : world.Sound context)
    (hfits : saveSize world ≤ context.maxFileBytes.toNat) (accepted audits : Nat) :
    writeTickZeroSave context world accepted audits (replaySizesOf world accepted audits) =
      .ok (saveBytes world) := by
  have hsave : (replaySizesOf world accepted audits).saveSize = saveSize world := rfl
  have hlayout : replayLayoutEnd accepted audits (replaySizesOf world accepted audits) =
      (replaySizesOf world accepted audits).total := by
    change 8 + (48 + 28) + (48 + saveSize world) + (48 + (8 + accepted * 228)) +
      (48 + (4 + audits * 328)) + (48 + (4 + accepted / 1024 * (16 + saveSize world))) + 32 =
        replayTotal world accepted audits
    rw [replayTotal, Nat.add_comm (saveSize world) 16]
    omega
  unfold writeTickZeroSave
  rw [hsave, fdWorldSave_eq hsound.bounded hfits le_rfl, ok_bind,
    failIf_bind_of_not (by rw [saveBytes_length, not_not]),
    failIf_bind_of_not (not_not.mpr hlayout)]

theorem fdReplayBuildInto_eq_ok (hsound : world.Sound context) {capacity : Nat} {bytes : List UInt8}
    (h : (fdReplayBuildInto context world decisions capacity s).1 = .ok bytes) :
    bytes = replayFile world (transcript world 0 decisions).records
      (transcript world 0 decisions).audits := by
  unfold fdReplayBuildInto at h
  simp only [run_bind] at h
  cases hmeasured : (measureReplay context world decisions s).1 with
  | error failure =>
      simp only [hmeasured, run_pure] at h
      cases h
  | ok m =>
      obtain ⟨hbuildable, rfl⟩ := measureReplay_eq_ok hsound hmeasured
      simp only [hmeasured, measureOf, run_ite] at h
      split at h
      · cases h
      · simp only [writeTickZeroSave_eq hsound hbuildable.fits, run_bind] at h
        cases hclone : (fdWorldCloneViaSave context world
            (measureReplay context world decisions s).2).1 with
        | error failure =>
            simp only [hclone, run_pure] at h
            cases h
        | ok work =>
            obtain ⟨rfl, -, -⟩ := clone_eq_of_ok hsound hclone
            simp only [hclone, run_bind, run_pure] at h
            have hwritten := writeReplay_eq hsound hbuildable
            exact Except.ok.inj (h.symm.trans hwritten)

/-- A file that was built is the file of the transcript. -/
theorem fdReplayBuild_eq_ok (hsound : world.Sound context) {capacity : Nat} {bytes : List UInt8}
    (h : (fdReplayBuild context world decisions capacity s).1 = .ok bytes) :
    Buildable context world decisions ∧
      bytes = replayFile world (transcript world 0 decisions).records
        (transcript world 0 decisions).audits := by
  unfold fdReplayBuild fdReplayBuildSize at h
  simp only [run_bind, run_pure] at h
  cases hmeasured : (measureReplay context world decisions s).1 with
  | error failure =>
      simp only [hmeasured, Except.map, run_pure] at h
      cases h
  | ok m =>
      obtain ⟨hbuildable, rfl⟩ := measureReplay_eq_ok hsound hmeasured
      simp only [hmeasured, Except.map, run_ite] at h
      split at h
      · cases h
      · simp only [run_bind, run_ite, run_pure] at h
        split at h
        · cases h
        · obtain ⟨built, hbuilt, hrest⟩ := bind_eq_ok.mp h
          obtain ⟨-, hsame⟩ := failIf_bind_eq_ok.mp hrest
          cases hsame
          exact ⟨hbuildable, fdReplayBuildInto_eq_ok hsound hbuilt⟩

theorem fdReplayBuildInto_of_buildable (h : Buildable context world decisions)
    (hsound : world.Sound context) (hcontext : context.NeverFails) {capacity : Nat}
    (hcapacity : replayTotal world (transcript world 0 decisions).records.length
      (transcript world 0 decisions).audits.length ≤ capacity) (s : Ledger) :
    (fdReplayBuildInto context world decisions capacity s).1 =
      .ok (replayFile world (transcript world 0 decisions).records
        (transcript world 0 decisions).audits) := by
  unfold fdReplayBuildInto
  have hlarge : ¬ capacity < (replaySizesOf world (transcript world 0 decisions).records.length
      (transcript world 0 decisions).audits.length).total := not_lt.mpr hcapacity
  simp only [run_bind, measureReplay_of_buildable h hsound hcontext, measureOf, run_ite]
  rw [if_neg hlarge]
  simp only [writeTickZeroSave_eq hsound h.fits, run_bind, h.clone hsound hcontext, run_pure]
  exact writeReplay_eq hsound h

/-- A buildable list is built into every buffer that is large enough. -/
theorem fdReplayBuild_of_buildable (h : Buildable context world decisions)
    (hsound : world.Sound context) (hcontext : context.NeverFails) {capacity : Nat}
    (hcapacity : replayTotal world (transcript world 0 decisions).records.length
      (transcript world 0 decisions).audits.length ≤ capacity) (s : Ledger) :
    (fdReplayBuild context world decisions capacity s).1 =
      .ok (replayFile world (transcript world 0 decisions).records
        (transcript world 0 decisions).audits) := by
  have htotal := h.total
  have hlt := context.maxFileBytes.toNat_lt
  have hpos : UInt64.ofNat (replayTotal world (transcript world 0 decisions).records.length
      (transcript world 0 decisions).audits.length) ≠ 0 := by
    intro hzero
    have hnat := congrArg UInt64.toNat hzero
    rw [UInt64.toNat_ofNat', UInt64.toNat_zero, Nat.mod_eq_of_lt (by omega)] at hnat
    unfold replayTotal at hnat
    omega
  have hlength : (replayFile world (transcript world 0 decisions).records
      (transcript world 0 decisions).audits).length = _ :=
    replayFile_length (transcript_messages hsound.valid 0 decisions)
  unfold fdReplayBuild fdReplayBuildSize
  simp only [run_bind, measureReplay_of_buildable h hsound hcontext, measureOf, Except.map, run_pure,
    replaySizesOf, run_ite]
  rw [if_neg (not_lt.mpr hcapacity)]
  simp only [fdContextAlloc_neverFails hcontext hpos, Bool.not_true, Bool.false_eq_true, if_false,
    fdReplayBuildInto_of_buildable h hsound hcontext le_rfl, ok_bind]
  rw [failIf_bind_of_not (not_not.mpr hlength)]

end build

end FrontierDirectorate
