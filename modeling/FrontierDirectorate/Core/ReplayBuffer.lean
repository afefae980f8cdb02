import Mathlib
import FrontierDirectorate.Core.Replay
import FrontierDirectorate.Core.SaveBuffer
import FrontierDirectorate.Lib.Regions

/-!
# Building a replay in memory

`fd_replay_build_into` as it works on its buffer: the layout is drawn over zeroed
memory, the record, audit and checkpoint cursors run through their regions while the
attempts are played, and the digests are computed from what then stands in the buffer.
`fd_replay_build` does this in a temporary block and copies it when all went well.
-/
namespace FrontierDirectorate
open Accounting ByteCodec CheckedMemory Checks

abbrev ReplayStores := Stores UInt8

def fdReplayWriteSectionHeader (position : Nat) (tag : UInt16) (length : Nat) :
    ReplayStores Unit := do
  storeAt position (fdStoreU16Le tag)
  storeAt (position + 2) (fdStoreU16Le fdSectionCritical)
  storeAt (position + 4) (fdStoreU32Le 0)
  storeAt (position + 8) (fdStoreU64Le (UInt64.ofNat length))

def fdReplayFinishSection (payloadPosition length : Nat) : ReplayStores Unit := do
  let payload ← loadAt payloadPosition length
  storeAt (payloadPosition + length) (fdSha256 payload).toList

/-- The loop over the four parameters of an action. -/
def storeParameters (position : Nat) (parameters : List.Vector UInt32 4) : ReplayStores Unit :=
  parameters.toList.zipIdx.forM fun (value, index) =>
    storeAt (position + index * 4) (fdStoreU32Le value)

def storeRecordSeat (position : Nat) (seat : SeatDecision) : ReplayStores Unit := do
  storeAt position (fdStoreU64Le seat.actorId)
  storeAt (position + 8) (fdStoreU32Le seat.action.category)
  storeAt (position + 12) (fdStoreU32Le seat.action.parameterCount)
  storeParameters (position + 16) seat.action.parameters

/-- `fd_encode_replay_record` on the memory behind its pointer. -/
def storeReplayRecord (position : Nat) (record : ReplayRecord) : ReplayStores Unit := do
  storeAt position (fdStoreU64Le record.tickBefore)
  storeAt (position + 8) (fdStoreU64Le record.tickAfter)
  storeAt (position + 16) (fdStoreU64Le record.decision.expectedTick)
  storeAt (position + 24) record.decision.expectedPreStateSha256.toList
  storeAt (position + 56) (fdStoreU32Le record.decision.seatCount)
  storeAt (position + 60) (fdStoreU32Le record.decision.reserved)
  storeRecordSeat (position + 64) (record.decision.seats.get 0)
  storeRecordSeat (position + 96) (record.decision.seats.get 1)
  storeAt (position + 128) record.preHash.toList
  storeAt (position + 160) record.postHash.toList
  storeAt (position + 192) record.eventHash.toList
  storeAt (position + 224) (fdStoreU32Le record.rngDomainCount)

def storeSeatWire (position : Nat) (seat : SeatDecision) : ReplayStores Unit := do
  storeAt position (fdStoreU64Le seat.actorId)
  storeAt (position + 8) (fdStoreU32Le seat.action.structSize)
  storeAt (position + 12) (fdStoreU32Le seat.action.abiVersion)
  storeAt (position + 16) (fdStoreU32Le seat.action.category)
  storeAt (position + 20) (fdStoreU32Le seat.action.parameterCount)
  storeParameters (position + 24) seat.action.parameters

/-- `fd_encode_joint_wire` on the memory behind its pointer. -/
def storeJointWire (position : Nat) (decision : JointDecision) : ReplayStores Unit := do
  storeAt position (fdStoreU32Le decision.structSize)
  storeAt (position + 4) (fdStoreU32Le decision.abiVersion)
  storeAt (position + 8) (fdStoreU32Le decision.seatCount)
  storeAt (position + 12) (fdStoreU32Le decision.reserved)
  storeAt (position + 16) (fdStoreU64Le decision.expectedTick)
  storeAt (position + 24) decision.expectedPreStateSha256.toList
  storeSeatWire (position + 56) (decision.seats.get 0)
  storeSeatWire (position + 96) (decision.seats.get 1)

/-- `fd_encode_audit` on the memory behind its pointer. -/
def storeAudit (position : Nat) (attemptIndex tick : UInt64) (decision : JointDecision)
    (diagnostic : Fail) : ReplayStores Unit := do
  let message := diagMessage diagnostic
  storeAt position (fdStoreU64Le attemptIndex)
  storeAt (position + 8) (fdStoreU64Le tick)
  storeJointWire (position + 16) decision
  storeAt (position + 152) (fdStoreU32Le diagnostic.code)
  storeAt (position + 156) (fdStoreU32Le diagnostic.fieldId)
  storeAt (position + 160) (fdStoreU32Le diagnostic.itemIndex)
  storeAt (position + 164) (fdStoreU32Le (UInt32.ofNat message.length))
  storeAt (position + 168) (List.replicate 160 0)
  storeAt (position + 168) message

/-- The save of `world` in the `length` bytes from `position` on; its result and `*written`. -/
def saveAt (context : FdContext) (world : World) (position length : Nat) :
    ReplayStores (Except Fail Unit × Nat) :=
  callAt position length fun room =>
    (fdWorldSaveInto context world room length).map fun filled =>
      ((filled.result, filled.written), filled.buffer)

/-- The working world of the second simulation and the three cursors. -/
structure ReplayCursors where
  work : World
  record : Nat
  audit : Nat
  checkpoint : Nat
  acceptedIndex : Nat

def writeCheckpointAt (context : FdContext) (saveSize : Nat) (c : ReplayCursors) :
    ReplayStores (Except Fail ReplayCursors) :=
  if c.acceptedIndex % fdReplayCheckpointInterval = 0 then do
    storeAt c.checkpoint (fdStoreU64Le (UInt64.ofNat c.acceptedIndex))
    storeAt (c.checkpoint + 8) (fdStoreU64Le (UInt64.ofNat saveSize))
    let (result, written) ← saveAt context c.work (c.checkpoint + 16) saveSize
    return match result with
      | .error failure => .error failure
      | .ok () =>
        if written ≠ saveSize then .error saveCountMismatch
        else .ok { c with checkpoint := c.checkpoint + (16 + saveSize) }
  else return .ok c

def writeAttemptAt (context : FdContext) (saveSize : Nat) (c : ReplayCursors)
    (attempt : JointDecision × Nat) : ReplayStores (Except Fail ReplayCursors) :=
  match fdWorldStep c.work attempt.1 stepOut with
  | (work, .error failure) =>
      if fdReplayResultIsAuditable failure.code then do
        storeAudit c.audit (UInt64.ofNat attempt.2) work.tick attempt.1 failure
        return .ok { c with work := work, audit := c.audit + fdReplayAuditWireSize }
      else return .error failure
  | (work, .ok step) =>
      if stagingMismatch step then
        return .error (fdDiagSet fdErrInternal fdFieldAction (UInt32.ofNat attempt.2)
          "phase-22 replay staging metadata mismatch")
      else do
        storeReplayRecord c.record (recordOf step)
        writeCheckpointAt context saveSize { c with
          work := work
          record := c.record + fdReplayRecordWireSize
          acceptedIndex := c.acceptedIndex + 1 }

def writeAttemptsAt (context : FdContext) (saveSize : Nat) :
    List (JointDecision × Nat) → ReplayCursors → ReplayStores (Except Fail ReplayCursors)
  | [], c => return .ok c
  | attempt :: rest, c => do
      match ← writeAttemptAt context saveSize c attempt with
      | .error failure => return .error failure
      | .ok c => writeAttemptsAt context saveSize rest c

def payload1 : Nat := 8 + 16

def position2 : Nat := payload1 + 28 + 32

def payload2 : Nat := position2 + 16

/-- Where the sections of the records, the audits and the checkpoints start, and where the
last one ends. -/
structure ReplayLayout where
  position3 : Nat
  position4 : Nat
  position5 : Nat
  last : Nat

namespace ReplayLayout

def payload3 (layout : ReplayLayout) : Nat := layout.position3 + 16

def payload4 (layout : ReplayLayout) : Nat := layout.position4 + 16

def payload5 (layout : ReplayLayout) : Nat := layout.position5 + 16

end ReplayLayout

def replayLayout (accepted audits : Nat) (sizes : ReplaySizes) : ReplayLayout :=
  let position3 := payload2 + sizes.saveSize + 32
  let position4 := position3 + 16 + recordsLength accepted + 32
  let position5 := position4 + 16 + auditsLength audits + 32
  ⟨position3, position4, position5, position5 + 16 + checkpointsLength sizes + 32⟩

def storeManifest (accepted audits : Nat) (sizes : ReplaySizes) : ReplayStores Unit := do
  fdReplayWriteSectionHeader 8 1 28
  storeAt payload1 (fdStoreU16Le fdReplayVersionMajor)
  storeAt (payload1 + 2) (fdStoreU16Le fdReplayVersionMinor)
  storeAt (payload1 + 4) (fdStoreU16Le fdReplayVersionMajor)
  storeAt (payload1 + 6) (fdStoreU16Le 0)
  storeAt (payload1 + 8) (fdStoreU32Le (UInt32.ofNat fdReplaySectionCount))
  storeAt (payload1 + 12) (fdStoreU64Le (UInt64.ofNat accepted))
  storeAt (payload1 + 20) (fdStoreU32Le (UInt32.ofNat sizes.checkpoints))
  storeAt (payload1 + 24) (fdStoreU32Le (UInt32.ofNat audits))
  fdReplayFinishSection payload1 28

/-- The stores of `fd_replay_build_into` between the clearing and the clone: everything but the
entries, the last three digests and the footer. -/
def drawSections (context : FdContext) (world : World) (accepted audits : Nat)
    (sizes : ReplaySizes) : ReplayStores (Except Fail Unit) := do
  let layout := replayLayout accepted audits sizes
  storeAt 0 fdReplayMagic
  storeManifest accepted audits sizes
  fdReplayWriteSectionHeader position2 2 sizes.saveSize
  let (result, written) ← saveAt context world payload2 sizes.saveSize
  match result with
  | .error failure => return .error failure
  | .ok () =>
    if written ≠ sizes.saveSize then return .error saveCountMismatch
    else do
      fdReplayFinishSection payload2 sizes.saveSize
      fdReplayWriteSectionHeader layout.position3 3 (recordsLength accepted)
      storeAt layout.payload3 (fdStoreU64Le (UInt64.ofNat accepted))
      fdReplayWriteSectionHeader layout.position4 4 (auditsLength audits)
      storeAt layout.payload4 (fdStoreU32Le (UInt32.ofNat audits))
      fdReplayWriteSectionHeader layout.position5 5 (checkpointsLength sizes)
      storeAt layout.payload5 (fdStoreU32Le (UInt32.ofNat sizes.checkpoints))
      return if layout.last + 32 ≠ sizes.total then
        .error (fdDiagSet fdErrInternal fdFieldFileBytes 0 "replay layout size mismatch")
      else .ok ()

def drawLayout (context : FdContext) (world : World) (accepted audits : Nat)
    (sizes : ReplaySizes) : ReplayStores (Except Fail Unit) := do
  storeAt 0 (List.replicate sizes.total 0)
  drawSections context world accepted audits sizes

/-- The last three digests and the footer, once the cursors are where the layout wants them. -/
def finishReplayAt (accepted audits : Nat) (sizes : ReplaySizes) (c : ReplayCursors) :
    ReplayStores (Except Fail Unit) := do
  let layout := replayLayout accepted audits sizes
  if c.record ≠ layout.payload3 + recordsLength accepted ∨
      c.audit ≠ layout.payload4 + auditsLength audits ∨
      c.checkpoint ≠ layout.payload5 + checkpointsLength sizes then
    return .error (fdDiagSet fdErrInternal fdFieldFileBytes 0 "replay record cursor mismatch")
  else do
    fdReplayFinishSection layout.payload3 (recordsLength accepted)
    fdReplayFinishSection layout.payload4 (auditsLength audits)
    fdReplayFinishSection layout.payload5 (checkpointsLength sizes)
    let bytes ← loadAt 0 (sizes.total - 32)
    storeAt (sizes.total - 32) (fdReplayFooterDigest bytes).toList
    return .ok ()

/-- The second simulation, from the first attempt to the footer. -/
def playInto (context : FdContext) (decisions : List JointDecision) (accepted audits : Nat)
    (sizes : ReplaySizes) (work : World) : ReplayStores (Except Fail Unit) := do
  let layout := replayLayout accepted audits sizes
  match ← writeAttemptsAt context sizes.saveSize decisions.zipIdx
      ⟨work, layout.payload3 + 8, layout.payload4 + 4, layout.payload5 + 4, 0⟩ with
  | .error failure => return .error failure
  | .ok c => finishReplayAt accepted audits sizes c

/-- A call that allocates, with the counters of its context. -/
def counted {α : Type} (call : StateM Ledger α) : StateT Ledger Option α := fun s => some (call s)

/-- What `fd_replay_build_into` leaves in `buffer`. -/
def fdReplayBuildIntoAt (context : FdContext) (tickZeroWorld : World)
    (decisions : List JointDecision) (buffer : List UInt8) (capacity : Nat) :
    StateT Ledger Option Filled := do
  match ← counted (measureReplay context tickZeroWorld decisions) with
  | .error failure => return ⟨.error failure, 0, buffer⟩
  | .ok (accepted, audits, sizes) =>
    if capacity < sizes.total then return ⟨.error replayBufferFailure, 0, buffer⟩
    else
      match ← drawLayout context tickZeroWorld accepted audits sizes buffer with
      | (.error failure, buffer) => return ⟨.error failure, 0, buffer⟩
      | (.ok (), buffer) =>
        match ← counted (fdWorldCloneViaSave context tickZeroWorld) with
        | .error failure => return ⟨.error failure, 0, buffer⟩
        | .ok work =>
          let (result, buffer) ← playInto context decisions accepted audits sizes work buffer
          counted (fdWorldDestroy work)
          return match result with
            | .error failure => ⟨.error failure, 0, buffer⟩
            | .ok () => ⟨.ok (), sizes.total, buffer⟩

/-- `fd_replay_build` with the caller's memory behind `buffer`. The allocated block of
`required` bytes holds whatever it held before. -/
def fdReplayBuildAt (context : FdContext) (temporary : (size : Nat) → List.Vector UInt8 size)
    (tickZeroWorld : World) (decisions : List JointDecision) (buffer : List UInt8)
    (capacity : Nat) : StateT Ledger Option Filled := do
  match ← counted (fdReplayBuildSize context tickZeroWorld decisions) with
  | .error failure => return ⟨.error failure, 0, buffer⟩
  | .ok required =>
    if capacity < required then return ⟨.error replayBufferFailure, 0, buffer⟩
    else if !(← counted (fdContextAlloc context (UInt64.ofNat required))) then
      return ⟨.error (outOfMemory "transactional replay allocation failed"), 0, buffer⟩
    else
      let built ← fdReplayBuildIntoAt context tickZeroWorld decisions
        (temporary required).toList required
      let filled ← match built.result with
        | .error failure => pure ⟨.error failure, 0, buffer⟩
        | .ok () =>
          if built.written ≠ required then
            pure ⟨.error (fdDiagSet fdErrInternal fdFieldFileBytes 0
              "replay build size mismatch"), 0, buffer⟩
          else do
            let bytes ← load built.buffer 0 required
            let buffer ← store buffer 0 bytes
            pure ⟨.ok (), required, buffer⟩
      counted (fdContextFree true (UInt64.ofNat required))
      return filled

end FrontierDirectorate
