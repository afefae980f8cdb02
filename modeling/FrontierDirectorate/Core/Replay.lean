import Mathlib
import FrontierDirectorate.Core.ReplayWire
import FrontierDirectorate.Core.Serialize

/-!
# Building a replay

`fd_replay.c`, first half: the attempts are classified and sized with one
simulation and written with a second one.
-/
namespace FrontierDirectorate
open ByteCodec Checks

abbrev fdReplaySectionCount : Nat := 5
/-- Accepted decisions between two checkpoints. -/
abbrev fdReplayCheckpointInterval : Nat := 1024

/-- `FDRP` and the version byte. -/
def fdReplayMagic : List UInt8 := [0x46, 0x44, 0x52, 0x50, 0, 0, 0, 1]

def fdReplayFooterDigest (bytes : List UInt8) : Digest :=
  sha256Pieces (domainPieces "FrontierDirectorate/Replay/Footer/v1" ++ [bytes])

/-- What classification counts, and the world it has reached. -/
structure Classified where
  work : World
  accepted : Nat
  audits : Nat

def classifyAttempt (s : Classified) (decision : JointDecision) : Except Fail Classified :=
  match fdWorldStep s.work decision stepOut with
  | (work, .ok _) => .ok { s with work := work, accepted := s.accepted + 1 }
  | (work, .error failure) =>
      if fdReplayResultIsAuditable failure.code then
        if s.audits = uint32Max then
          .error (fdDiagSet fdErrCapacity fdFieldFileBytes 0
            "replay audit count exceeds format bound")
        else .ok { s with work := work, audits := s.audits + 1 }
      else .error failure

/-- The numbers of accepted and of audited attempts. -/
def fdReplayClassifyAttempts (context : FdContext) (tickZeroWorld : World)
    (decisions : List JointDecision) : StateM Ledger (Except Fail (Nat × Nat)) := do
  if context.maxFileBytes.toNat / fdReplayRecordWireSize < decisions.length ∨
      uint64Max / fdOperationalTicks.toNat < decisions.length then
    return .error (fdDiagSet fdErrCapacity fdFieldFileBytes 0
      "replay attempt count exceeds bounds")
  else
    match ← fdWorldCloneViaSave context tickZeroWorld with
    | .error failure => return .error failure
    | .ok work =>
      let result := forEach decisions classifyAttempt ⟨work, 0, 0⟩
      fdWorldDestroy work
      return result.map fun s => (s.accepted, s.audits)

/-- The announced sizes of a replay. -/
structure ReplaySizes where
  total : Nat
  saveSize : Nat
  checkpoints : Nat
deriving DecidableEq, Repr

def fdReplaySizeInternal (context : FdContext) (world : World) (acceptedCount auditCount : Nat) :
    Option ReplaySizes :=
  let checkpointCount := acceptedCount / fdReplayCheckpointInterval
  if uint32Max < checkpointCount then none
  else do
    let saveSize ← (fdWorldSaveSize context world).toOption
    let recordsLength ← fdU64Mul acceptedCount fdReplayRecordWireSize
    let recordsLength ← fdU64Add recordsLength 8
    let auditsLength ← fdU64Mul auditCount fdReplayAuditWireSize
    let auditsLength ← fdU64Add auditsLength 4
    let checkpointsLength ← fdU64Add saveSize 16
    let checkpointsLength ← fdU64Mul checkpointCount checkpointsLength
    let checkpointsLength ← fdU64Add checkpointsLength 4
    let payloadTotal ← fdU64Add 28 saveSize
    let payloadTotal ← fdU64Add payloadTotal recordsLength
    let payloadTotal ← fdU64Add payloadTotal auditsLength
    let payloadTotal ← fdU64Add payloadTotal checkpointsLength
    let total ← fdU64Add 8 payloadTotal
    let total ← fdU64Add total (fdReplaySectionCount * 48)
    let total ← fdU64Add total 32
    some ⟨total, saveSize, checkpointCount⟩

def replayBoundFailure : Fail :=
  fdDiagSet fdErrCapacity fdFieldFileBytes 0 "replay exceeds configured file bound"

def replayBufferFailure : Fail :=
  fdDiagSet fdErrBufferTooSmall fdFieldBufferCapacity 0 "replay buffer is smaller than required size"

def replaySourceFailure : Fail :=
  fdDiagSet fdErrState fdFieldTick 0 "replay source must be tick zero"

/-- The sizes of a replay within the file limit. -/
def replaySizesWithin (context : FdContext) (world : World) (acceptedCount auditCount : Nat) :
    Except Fail ReplaySizes :=
  match fdReplaySizeInternal context world acceptedCount auditCount with
  | none => .error replayBoundFailure
  | some sizes =>
      if context.maxFileBytes.toNat < sizes.total then .error replayBoundFailure else .ok sizes

/-- The counts of the attempts and the sizes that follow from them. -/
def measureReplay (context : FdContext) (tickZeroWorld : World) (decisions : List JointDecision) :
    StateM Ledger (Except Fail (Nat × Nat × ReplaySizes)) := do
  if tickZeroWorld.tick ≠ 0 then return .error replaySourceFailure
  else
    match ← fdReplayClassifyAttempts context tickZeroWorld decisions with
    | .error failure => return .error failure
    | .ok (accepted, audits) =>
        return (replaySizesWithin context tickZeroWorld accepted audits).map (accepted, audits, ·)

def fdReplayBuildSize (context : FdContext) (tickZeroWorld : World)
    (decisions : List JointDecision) : StateM Ledger (Except Fail Nat) := do
  let measured ← measureReplay context tickZeroWorld decisions
  return measured.map fun m => m.2.2.total

/-- The regions of the file that are filled while the attempts run; a region grows at its cursor. -/
structure ReplayWriter where
  work : World
  records : List UInt8
  audits : List UInt8
  checkpoints : List UInt8
  acceptedIndex : Nat

/-- The record of a staged transition. -/
def recordOf (step : StepResult) : ReplayRecord where
  tickBefore := step.stagedTickBefore
  tickAfter := step.stagedTickAfter
  decision := step.stagedDecision
  rngDomainCount := step.rngDomainCount
  preHash := step.stagedPreStateSha256
  postHash := step.finalizedPostStateSha256
  eventHash := step.stagedEventSha256

/-- A save whose byte count is not the announced one; the diagnostic still holds `ok`. -/
def saveCountMismatch : Fail := fdDiagSet fdErrInternal fdFieldNone 0 "ok"

def writeCheckpoint (context : FdContext) (saveSize : Nat) (s : ReplayWriter) :
    Except Fail ReplayWriter :=
  if s.acceptedIndex % fdReplayCheckpointInterval = 0 then do
    let save ← fdWorldSave context s.work saveSize
    failIf (save.length ≠ saveSize) saveCountMismatch
    .ok { s with checkpoints := s.checkpoints ++ (fdStoreU64Le (UInt64.ofNat s.acceptedIndex) ++
      (fdStoreU64Le (UInt64.ofNat saveSize) ++ save)) }
  else .ok s

/-- The staging metadata a record is written from. -/
def stagingMismatch (step : StepResult) : Prop :=
  step.transitionStagePhase ≠ 22 ∨ step.stateHashPhase ≠ 23 ∨
    step.stateHashTraceIndex ≤ step.transitionStageTraceIndex ∨
    fdHashJointDecisionInternal (recordOf step).decision ≠ step.stagedDecisionSha256 ∨
    step.postStateSha256 ≠ step.finalizedPostStateSha256

instance (step : StepResult) : Decidable (stagingMismatch step) := by
  unfold stagingMismatch
  infer_instance

def writeAttempt (context : FdContext) (saveSize : Nat) (s : ReplayWriter)
    (attempt : JointDecision × Nat) : Except Fail ReplayWriter :=
  match fdWorldStep s.work attempt.1 stepOut with
  | (work, .error failure) =>
      if fdReplayResultIsAuditable failure.code then
        .ok { s with
          work := work
          audits := s.audits ++
            fdEncodeAudit (UInt64.ofNat attempt.2) work.tick attempt.1 failure }
      else .error failure
  | (work, .ok step) => do
      failIf (stagingMismatch step)
        (fdDiagSet fdErrInternal fdFieldAction (UInt32.ofNat attempt.2)
          "phase-22 replay staging metadata mismatch")
      writeCheckpoint context saveSize { s with
        work := work
        records := s.records ++ fdEncodeReplayRecord (recordOf step)
        acceptedIndex := s.acceptedIndex + 1 }

def replayManifestPayload (accepted checkpoints audits : Nat) : List UInt8 :=
  fdStoreU16Le fdReplayVersionMajor ++ (fdStoreU16Le fdReplayVersionMinor ++
    (fdStoreU16Le fdReplayVersionMajor ++ (fdStoreU16Le 0 ++
      (fdStoreU32Le (UInt32.ofNat fdReplaySectionCount) ++
        (fdStoreU64Le (UInt64.ofNat accepted) ++ (fdStoreU32Le (UInt32.ofNat checkpoints) ++
          fdStoreU32Le (UInt32.ofNat audits)))))))

/-- The five payloads of a replay. -/
structure ReplayPayloads where
  manifest : List UInt8
  save : List UInt8
  records : List UInt8
  audits : List UInt8
  checkpoints : List UInt8

def recordsLength (accepted : Nat) : Nat := 8 + accepted * fdReplayRecordWireSize

def auditsLength (audits : Nat) : Nat := 4 + audits * fdReplayAuditWireSize

def checkpointsLength (sizes : ReplaySizes) : Nat := 4 + sizes.checkpoints * (16 + sizes.saveSize)

/-- Everything before the footer, with the announced lengths. -/
def replayBody (accepted audits : Nat) (sizes : ReplaySizes) (p : ReplayPayloads) : List UInt8 :=
  fdReplayMagic ++ (writeSection 1 28 p.manifest ++ (writeSection 2 sizes.saveSize p.save ++
    (writeSection 3 (recordsLength accepted) p.records ++
      (writeSection 4 (auditsLength audits) p.audits ++
        writeSection 5 (checkpointsLength sizes) p.checkpoints))))

/-- The position after the last section, plus the footer. -/
def replayLayoutEnd (accepted audits : Nat) (sizes : ReplaySizes) : Nat :=
  8 + (48 + 28) + (48 + sizes.saveSize) + (48 + recordsLength accepted) +
    (48 + auditsLength audits) + (48 + checkpointsLength sizes) + 32

/-- What the cursors have written, once they are where the layout wants them. -/
def finishReplay (accepted audits : Nat) (sizes : ReplaySizes) (save : List UInt8)
    (s : ReplayWriter) : Except Fail (List UInt8) := do
  failIf (8 + s.records.length ≠ recordsLength accepted ∨
      4 + s.audits.length ≠ auditsLength audits ∨
      4 + s.checkpoints.length ≠ checkpointsLength sizes)
    (fdDiagSet fdErrInternal fdFieldFileBytes 0 "replay record cursor mismatch")
  let body := replayBody accepted audits sizes {
    manifest := replayManifestPayload accepted sizes.checkpoints audits
    save := save
    records := fdStoreU64Le (UInt64.ofNat accepted) ++ s.records
    audits := fdStoreU32Le (UInt32.ofNat audits) ++ s.audits
    checkpoints := fdStoreU32Le (UInt32.ofNat sizes.checkpoints) ++ s.checkpoints }
  .ok (body ++ (fdReplayFooterDigest body).toList)

/-- The tick-zero save of the second section. -/
def writeTickZeroSave (context : FdContext) (world : World) (accepted audits : Nat)
    (sizes : ReplaySizes) : Except Fail (List UInt8) := do
  let save ← fdWorldSave context world sizes.saveSize
  failIf (save.length ≠ sizes.saveSize) saveCountMismatch
  failIf (replayLayoutEnd accepted audits sizes ≠ sizes.total)
    (fdDiagSet fdErrInternal fdFieldFileBytes 0 "replay layout size mismatch")
  .ok save

def fdReplayBuildInto (context : FdContext) (tickZeroWorld : World)
    (decisions : List JointDecision) (capacity : Nat) :
    StateM Ledger (Except Fail (List UInt8)) := do
  match ← measureReplay context tickZeroWorld decisions with
  | .error failure => return .error failure
  | .ok (accepted, audits, sizes) =>
    if capacity < sizes.total then return .error replayBufferFailure
    else
      match writeTickZeroSave context tickZeroWorld accepted audits sizes with
      | .error failure => return .error failure
      | .ok save =>
        match ← fdWorldCloneViaSave context tickZeroWorld with
        | .error failure => return .error failure
        | .ok work =>
          let written := forEach decisions.zipIdx (writeAttempt context sizes.saveSize)
            ⟨work, [], [], [], 0⟩
          fdWorldDestroy work
          return written >>= finishReplay accepted audits sizes save

/-- The bytes written at the front of a buffer of `capacity` bytes. -/
def fdReplayBuild (context : FdContext) (tickZeroWorld : World) (decisions : List JointDecision)
    (capacity : Nat) : StateM Ledger (Except Fail (List UInt8)) := do
  match ← fdReplayBuildSize context tickZeroWorld decisions with
  | .error failure => return .error failure
  | .ok required =>
    if capacity < required then return .error replayBufferFailure
    else if !(← fdContextAlloc context (UInt64.ofNat required)) then
      return .error (outOfMemory "transactional replay allocation failed")
    else
      let built ← fdReplayBuildInto context tickZeroWorld decisions required
      fdContextFree true (UInt64.ofNat required)
      return do
        let bytes ← built
        failIf (bytes.length ≠ required)
          (fdDiagSet fdErrInternal fdFieldFileBytes 0 "replay build size mismatch")
        .ok bytes

end FrontierDirectorate
