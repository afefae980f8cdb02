import Mathlib
import FrontierDirectorate.Core.Replay

/-!
# Opening and advancing a replay

`fd_replay.c`, second half. An opened replay has been parsed, checked record by
record and re-executed; advancing it plays records on a clone and commits the
clock and the digest.
-/
namespace FrontierDirectorate
open ByteCodec Checks

/-- The section at the front of `rest`, which runs up to the footer; its payload length. -/
def parseReplaySection (s : SectionScan) (rest : List UInt8) :
    Except Fail (SectionScan × Nat) := do
  let item := UInt32.ofNat s.sectionCount
  failIf (rest.length < 48)
    (fdDiagSet fdErrFormat fdFieldSection item "truncated replay section")
  let tag := fdLoadU16Le rest
  let flags := fdLoadU16Le (rest.drop 2)
  let reserved := fdLoadU32Le (rest.drop 4)
  let length := (fdLoadU64Le (rest.drop 8)).toNat
  failIf (tag ≤ s.previousTag ∨ reserved ≠ 0 ∨ flags &&& ~~~ fdSectionCritical ≠ 0 ∨
      uint64Max - 48 < length ∨ rest.length < 48 + length)
    (fdDiagSet fdErrFormat fdFieldSection item "noncanonical replay section framing")
  let payload := slice rest 16 length
  failIf ((fdSha256 payload).toList ≠ slice rest (16 + length) 32)
    (fdDiagSet fdErrChecksum fdFieldSection item "replay section digest mismatch")
  failIf (tag ≤ 5 ∧ flags &&& fdSectionCritical = 0)
    (fdDiagSet fdErrFormat fdFieldSection item "mandatory replay section is optional")
  failIf (¬ tag ≤ 5 ∧ flags &&& fdSectionCritical ≠ 0)
    (fdDiagSet fdErrVersion fdFieldSection item "unknown critical replay section")
  let sections := if tag ≤ 5 then
    Function.update s.sections tag.toNat ⟨payload, flags, true⟩ else s.sections
  failIf (64 < s.sectionCount + 1)
    (fdDiagSet fdErrCapacity fdFieldSection (UInt32.ofNat (s.sectionCount + 1))
      "too many replay sections")
  .ok (⟨sections, tag, s.sectionCount + 1⟩, length)

/-- The section table and the number of sections of a file of at least 88 bytes. -/
def fdParseReplaySections (bytes : List UInt8) : Except Fail (Sections × Nat) := do
  let framed := slice bytes 8 (bytes.length - 40)
  let s ← sectionLoop parseReplaySection ⟨fun _ => .absent, 0, 0⟩ framed
  forEach (List.range' 1 5) (fun () tag =>
    failIf (¬ (s.sections tag).present)
      (fdDiagSet fdErrFormat fdFieldSection (UInt32.ofNat tag) "missing replay section")) ()
  .ok (s.sections, s.sectionCount)

/-- The checks of `fd_replay_open` on the file as a whole. -/
def openSections (context : FdContext) (bytes : List UInt8) : Except Fail (Sections × Nat) := do
  failIf (context.maxFileBytes.toNat < bytes.length)
    (fdDiagSet fdErrCapacity fdFieldFileBytes 0 "replay exceeds configured file bound")
  failIf ((bytes.length < 8 + 32 + 48 ∨ bytes.take 8 ≠ fdReplayMagic) ∧
      8 ≤ bytes.length ∧ bytes.take 7 = fdReplayMagic.take 7)
    (fdDiagSet fdErrVersion fdFieldFormatVersion 0 "unsupported replay major version")
  failIf (bytes.length < 8 + 32 + 48 ∨ bytes.take 8 ≠ fdReplayMagic)
    (fdDiagSet fdErrFormat fdFieldFileBytes 0 "invalid or truncated replay magic")
  failIf ((fdReplayFooterDigest (bytes.take (bytes.length - 32))).toList ≠
      slice bytes (bytes.length - 32) 32)
    (fdDiagSet fdErrChecksum fdFieldFileBytes 0 "replay footer digest mismatch")
  fdParseReplaySections bytes

/-- The counts of the manifest. -/
structure ReplayCounts where
  decisions : Nat
  checkpoints : Nat
  audits : Nat
deriving DecidableEq, Repr

def ReplayCounts.attempts (counts : ReplayCounts) : Nat := counts.decisions + counts.audits

/-- The lengths the counts stand for, when 64 bits hold them: records, audits, attempts. -/
def ReplayCounts.lengths (counts : ReplayCounts) : Option (Nat × Nat × Nat) := do
  let records ← fdU64Mul counts.decisions fdReplayRecordWireSize
  let records ← fdU64Add records 8
  let audits ← fdU64Mul counts.audits fdReplayAuditWireSize
  let audits ← fdU64Add audits 4
  let attempts ← fdU64Add counts.decisions counts.audits
  some (records, audits, attempts)

/-- The counts and lengths agree with the sections. -/
def countsConsistent (sections : Sections) (counts : ReplayCounts) : Bool :=
  match counts.lengths with
  | none => false
  | some (records, audits, _) =>
    decide ((sections 3).payload.length = records) &&
    decide ((fdLoadU64Le (sections 3).payload).toNat = counts.decisions) &&
    decide ((sections 4).payload.length = audits) &&
    decide ((fdLoadU32Le (sections 4).payload).toNat = counts.audits) &&
    decide (4 ≤ (sections 5).payload.length) &&
    decide ((fdLoadU32Le (sections 5).payload).toNat = counts.checkpoints) &&
    decide (counts.decisions / fdReplayCheckpointInterval ≤ uint32Max) &&
    decide (counts.checkpoints = counts.decisions / fdReplayCheckpointInterval)

/-- The checks on the manifest. -/
def openManifest (sections : Sections) (parsedCount : Nat) : Except Fail ReplayCounts := do
  let manifest := (sections 1).payload
  failIf (manifest.length < 28 ∨ fdLoadU16Le manifest ≠ fdReplayVersionMajor ∨
      fdLoadU16Le (manifest.drop 4) ≠ fdReplayVersionMajor ∨
      fdReplayVersionMinor < fdLoadU16Le (manifest.drop 6) ∨
      (fdLoadU32Le (manifest.drop 8)).toNat ≠ parsedCount)
    (fdDiagSet fdErrVersion fdFieldFormatVersion 0 "unsupported replay manifest")
  let counts : ReplayCounts := {
    decisions := (fdLoadU64Le (manifest.drop 12)).toNat
    checkpoints := (fdLoadU32Le (manifest.drop 20)).toNat
    audits := (fdLoadU32Le (manifest.drop 24)).toNat }
  failIf (¬ countsConsistent sections counts)
    (fdDiagSet fdErrFormat fdFieldSection 0 "replay counts or lengths are inconsistent")
  .ok counts

/-- `struct fd_replay`; the counts of records and audits are the lengths of the lists. -/
structure Replay where
  tickZeroSave : List UInt8
  records : List ReplayRecord
  audits : List ReplayAudit
  cursor : Nat
  checkpointCount : Nat
  tickZeroAllocationSize : UInt64
  recordAllocationSize : UInt64
  auditAllocationSize : UInt64
  tickZeroHash : Digest
deriving DecidableEq

/-- `n` records with their chain checks. `tick` and `hash` are what the record numbered `index`
must start from: the tick-zero state, or the end of the record before. -/
def decodeRecords (foreign : List.Vector FdEntityId 2) (p : List UInt8) :
    (n index : Nat) → (tick : UInt64) → (hash : Digest) → Except Fail (List ReplayRecord)
  | 0, _, _, _ => .ok []
  | n + 1, index, tick, hash => do
      let record ← fdDecodeReplayRecord (p.drop (index * fdReplayRecordWireSize)) index
      let seats := record.decision.seats
      failIf ((seats.get 0).actorId ≠ foreign.get 0 ∨ (seats.get 1).actorId ≠ foreign.get 1 ∨
          (seats.get 0).action.category ≠ fdActionPass ∨
          (seats.get 1).action.category ≠ fdActionPass ∨
          (seats.get 0).action.parameterCount ≠ 0 ∨ (seats.get 1).action.parameterCount ≠ 0 ∨
          record.tickBefore ≠ tick ∨ record.preHash ≠ hash)
        (fdDiagSet fdErrFormat fdFieldAction (UInt32.ofNat index)
          "replay record chain is discontinuous")
      failIf (¬ seats.toList.all fun seat => seat.action.parameters.toList.all (· == 0))
        (fdDiagSet fdErrFormat fdFieldAction (UInt32.ofNat index)
          "section 3 contains nonzero PASS parameter")
      let records ← decodeRecords foreign p n (index + 1) record.tickAfter record.postHash
      .ok (record :: records)

/-- `n` audits with their order and clock checks; `previous` is the attempt index of the audit
before the one numbered `index`. -/
def decodeAudits (counts : ReplayCounts) (p : List UInt8) :
    (n index : Nat) → (previous : Option UInt64) → Except Fail (List ReplayAudit)
  | 0, _, _ => .ok []
  | n + 1, index, previous => do
      let audit ← fdDecodeAudit (p.drop (index * fdReplayAuditWireSize)) counts.attempts previous
      failIf (audit.attemptIndex.toNat < index)
        (fdDiagSet fdErrFormat fdFieldAction audit.attemptIndex.toUInt32
          "section 4 audit attempt order is invalid")
      let acceptedBefore := audit.attemptIndex.toNat - index
      failIf (counts.decisions < acceptedBefore ∨
          uint64Max / fdOperationalTicks.toNat < acceptedBefore ∨
          audit.tick.toNat ≠ acceptedBefore * fdOperationalTicks.toNat)
        (fdDiagSet fdErrFormat fdFieldAction audit.attemptIndex.toUInt32
          "section 4 audit tick is not chronological")
      let audits ← decodeAudits counts p n (index + 1) (some audit.attemptIndex)
      .ok (audit :: audits)

/-- The re-execution: the world and the entries that are not consumed yet. -/
structure ReplayMerge where
  world : World
  records : List ReplayRecord
  audits : List ReplayAudit

/-- Whether the next audit is the attempt numbered `index`. -/
def ReplayMerge.nextAudit (s : ReplayMerge) (index : Nat) : Option (ReplayAudit × List ReplayAudit) :=
  match s.audits with
  | [] => none
  | audit :: audits => if audit.attemptIndex.toNat = index then some (audit, audits) else none

/-- A rejected attempt must be rejected again, with the same diagnostic and no effect. -/
def mergeAudit (s : ReplayMerge) (index : Nat) (audit : ReplayAudit) (audits : List ReplayAudit) :
    Except Fail ReplayMerge :=
  let mismatch := fdDiagSet fdErrFormat fdFieldAction (UInt32.ofNat index)
    "section 4 audit diagnostic failed semantic verification"
  match fdWorldStep s.world audit.decision stepOut with
  | (_, .ok _) => .error mismatch
  | (world, .error failure) => do
      failIf (failure.code ≠ audit.result ∨ failure.fieldId ≠ audit.fieldId ∨
          failure.itemIndex ≠ audit.itemIndex ∨
          (diagMessage failure).length ≠ audit.message.length ∨
          diagMessage failure ≠ audit.message ∨ world.tick ≠ s.world.tick ∨
          world.stateSha256 ≠ s.world.stateSha256) mismatch
      .ok { s with world := world, audits := audits }

/-- An accepted attempt must reproduce its record. -/
def mergeRecord (s : ReplayMerge) (index : Nat) : Except Fail ReplayMerge :=
  match s.records with
  | [] => .error (fdDiagSet fdErrFormat fdFieldAction (UInt32.ofNat index)
      "section 3 has more accepted attempts than records")
  | record :: records => do
      failIf (record.tickBefore ≠ s.world.tick ∨ record.preHash ≠ s.world.stateSha256)
        (fdDiagSet fdErrFormat fdFieldAction (UInt32.ofNat index)
          "section 3 transition pre-state does not match")
      let failed := fun code => fdDiagSet code fdFieldAction (UInt32.ofNat index)
        "section 3 accepted transition failed semantic verification"
      match fdWorldStep s.world record.decision stepOut with
      | (_, .error failure) => .error (failed failure.code)
      | (world, .ok step) =>
          failIf (record.tickAfter ≠ world.tick ∨ record.postHash ≠ world.stateSha256 ∨
            record.eventHash ≠ step.eventSha256) (failed fdErrChecksum)
          .ok { s with world := world, records := records }

def mergeAttempt (s : ReplayMerge) (index : Nat) : Except Fail ReplayMerge :=
  match s.nextAudit index with
  | some (audit, audits) => mergeAudit s index audit audits
  | none => mergeRecord s index

/-- The re-execution of every attempt from the tick-zero world. -/
def mergeReplay (world : World) (records : List ReplayRecord) (audits : List ReplayAudit)
    (attempts : Nat) : Except Fail Unit := do
  let s ← forEach (List.range attempts) mergeAttempt ⟨world, records, audits⟩
  failIf (s.records ≠ [] ∨ s.audits ≠ [])
    (fdDiagSet fdErrFormat fdFieldAction
      (UInt32.ofNat (records.length - s.records.length + (audits.length - s.audits.length)))
      "replay attempt merge did not consume every record")

def checkpointFailure (code : FdResult) (checkpoint : Nat) (message : String) : Fail :=
  fdDiagSet code fdFieldSection (UInt32.ofNat checkpoint) message

/-- `n` checkpoints; `rest` is what is left of the section at the one numbered `checkpoint`. -/
def checkCheckpoints (context : FdContext) (records : List ReplayRecord) :
    (n checkpoint : Nat) → (rest : List UInt8) → StateM Ledger (Except Fail Unit)
  | 0, checkpoint, rest =>
      return failIf (rest ≠ []) (checkpointFailure fdErrFormat checkpoint
        "section 5 checkpoint bytes are not fully consumed")
  | n + 1, checkpoint, rest => do
    if rest.length < 16 then
      return .error (checkpointFailure fdErrFormat checkpoint
        "section 5 checkpoint header is truncated")
    else
      let decisionOffset := (fdLoadU64Le rest).toNat
      let checkpointSize := (fdLoadU64Le (rest.drop 8)).toNat
      let body := rest.drop 16
      if decisionOffset ≠ (checkpoint + 1) * fdReplayCheckpointInterval ∨
          body.length < checkpointSize then
        return .error (checkpointFailure fdErrFormat checkpoint
          "section 5 checkpoint offset or size is invalid")
      else
        match ← fdWorldLoad context (body.take checkpointSize) with
        | .error failure => return .error failure
        | .ok world =>
          fdWorldDestroy world
          let post := (records[decisionOffset - 1]?).map ReplayRecord.postHash
          if world.tick.toNat ≠ decisionOffset * fdOperationalTicks.toNat ∨
              post ≠ some world.stateSha256 then
            return .error (checkpointFailure fdErrChecksum checkpoint
              "section 5 checkpoint state does not match transition")
          else checkCheckpoints context records n (checkpoint + 1) (body.drop checkpointSize)

/-- `sizeof` of the replay structure. -/
def replayBytes : UInt64 := UInt64.ofNat sizeofFdReplay

/-- The allocations of a replay; an array of no entries is not allocated. -/
structure ReplayMemory where
  save : UInt64
  records : UInt64
  audits : UInt64

/-- Releases a replay, the arrays first. -/
def freeReplay (memory : ReplayMemory) : StateM Ledger Unit := do
  fdContextFree (memory.audits != 0) memory.audits
  fdContextFree (memory.records != 0) memory.records
  fdContextFree true memory.save
  fdContextFree true replayBytes

/-- The sizes of the two arrays, when 64 bits hold them. -/
def replayMemory (saveLength : Nat) (counts : ReplayCounts) : Option ReplayMemory := do
  let records ← fdU64Mul counts.decisions sizeofFdReplayRecord
  let audits ← fdU64Mul counts.audits sizeofFdReplayAudit
  some ⟨UInt64.ofNat saveLength, UInt64.ofNat records, UInt64.ofNat audits⟩

/-- The four allocations of `fd_replay_open`; a failure releases those before it. -/
def allocateReplay (context : FdContext) (memory : ReplayMemory) :
    StateM Ledger (Except Fail Unit) := do
  if !(← fdContextAlloc context replayBytes) then
    return .error (outOfMemory "replay handle allocation failed")
  else if !(← fdContextAlloc context memory.save) then
    fdContextFree true replayBytes
    return .error (outOfMemory "replay checkpoint allocation failed")
  else
    let records ← if memory.records = 0 then pure true else fdContextAlloc context memory.records
    if !records then
      fdContextFree true memory.save
      fdContextFree true replayBytes
      return .error (outOfMemory "replay record allocation failed")
    else
      let audits ← if memory.audits = 0 then pure true else fdContextAlloc context memory.audits
      if !audits then
        fdContextFree (memory.records != 0) memory.records
        fdContextFree true memory.save
        fdContextFree true replayBytes
        return .error (outOfMemory "replay audit allocation failed")
      else return .ok ()

/-- The checks of `fd_replay_open` on a replay whose arrays are allocated. `checkWorld` is the
tick-zero world that has been loaded and released before. -/
def verifyReplay (context : FdContext) (sections : Sections) (counts : ReplayCounts)
    (checkWorld : World) :
    StateM Ledger (Except Fail (List ReplayRecord × List ReplayAudit)) := do
  let decoded := do
    let records ← decodeRecords checkWorld.region.foreignFactionIds
      ((sections 3).payload.drop 8) counts.decisions 0 0 checkWorld.stateSha256
    let audits ← decodeAudits counts ((sections 4).payload.drop 4) counts.audits 0 none
    .ok (records, audits)
  match decoded with
  | .error failure => return .error failure
  | .ok (records, audits) =>
    match ← fdWorldLoad context (sections 2).payload with
    | .error failure => return .error failure
    | .ok world =>
      let merged := mergeReplay world records audits counts.attempts
      fdWorldDestroy world
      match merged with
      | .error failure => return .error failure
      | .ok () =>
        let checked ← checkCheckpoints context records counts.checkpoints 0
          ((sections 5).payload.drop 4)
        return checked.map fun () => (records, audits)

/-- `fd_replay_open` with a diagnostic to write to; on failure it holds the first failing check. -/
def fdReplayOpen (context : FdContext) (bytes : List UInt8) :
    StateM Ledger (Except Fail Replay) := do
  let checked := do
    let (sections, parsedCount) ← openSections context bytes
    let counts ← openManifest sections parsedCount
    .ok (sections, counts)
  match checked with
  | .error failure => return .error failure
  | .ok (sections, counts) =>
    match ← fdWorldLoad context (sections 2).payload with
    | .error failure => return .error failure
    | .ok checkWorld =>
      if checkWorld.tick ≠ 0 then
        fdWorldDestroy checkWorld
        return .error (fdDiagSet fdErrState fdFieldTick 0 "replay checkpoint is not tick zero")
      else
        match replayMemory (sections 2).payload.length counts with
        | none =>
            fdWorldDestroy checkWorld
            return .error (fdDiagSet fdErrCapacity fdFieldFileBytes 0
              "replay record allocation size overflows")
        | some memory =>
          match ← allocateReplay context memory with
          | .error failure =>
              fdWorldDestroy checkWorld
              return .error failure
          | .ok () =>
            fdWorldDestroy checkWorld
            match ← verifyReplay context sections counts checkWorld with
            | .error failure =>
                freeReplay memory
                return .error failure
            | .ok (records, audits) =>
                addHandle
                return .ok {
                  tickZeroSave := (sections 2).payload
                  records := records
                  audits := audits
                  cursor := 0
                  checkpointCount := counts.checkpoints
                  tickZeroAllocationSize := memory.save
                  recordAllocationSize := memory.records
                  auditAllocationSize := memory.audits
                  tickZeroHash := checkWorld.stateSha256 }

def Replay.memory (replay : Replay) : ReplayMemory :=
  ⟨replay.tickZeroAllocationSize, replay.recordAllocationSize, replay.auditAllocationSize⟩

def fdReplayDestroy (replay : Replay) : StateM Ledger Unit := do
  freeReplay replay.memory
  dropHandle

def fdReplayCreateWorld (context : FdContext) (replay : Replay) :
    StateM Ledger (Except Fail World) := fdWorldLoad context replay.tickZeroSave

structure ReplayStatus where
  structSize : UInt32
  abiVersion : UInt32
  cursor : Nat
  totalDecisions : Nat
  decisionsAdvanced : Nat
  complete : UInt32
  reserved : UInt32
  stateSha256 : Digest
deriving DecidableEq

def ReplayStatus.header (status : ReplayStatus) : StructHeader :=
  ⟨status.structSize, status.abiVersion⟩

/-- The caller's side of `fd_replay_advance` after the call. -/
structure Advanced where
  replay : Replay
  world : World
  out : ReplayStatus
  result : Except Fail Unit

/-- The tick and the digest a world must have at the cursor. -/
def Replay.expected (replay : Replay) : UInt64 × Digest :=
  match replay.records[replay.cursor]? with
  | some record => (record.tickBefore, record.preHash)
  | none =>
      match replay.records.getLast? with
      | some record => (record.tickAfter, record.postHash)
      | none => (0, replay.tickZeroHash)

/-- One record played on the candidate; `index` is its position in the replay. -/
def playRecord (candidate : World) (entry : ReplayRecord × Nat) : Except Fail World :=
  match fdWorldStep candidate entry.1.decision stepOut with
  | (_, .error failure) => .error failure
  | (candidate, .ok step) => do
      failIf (candidate.stateSha256 ≠ entry.1.postHash ∨ step.eventSha256 ≠ entry.1.eventHash)
        (fdDiagSet fdErrChecksum fdFieldAction (UInt32.ofNat entry.2)
          "replay diverged at operational boundary")
      .ok candidate

/-- The checks of `fd_replay_advance`; `sameContext` tells whether the world belongs to the context
of the replay. -/
def advanceChecks (replay : Replay) (world : World) (out : ReplayStatus) (sameContext : Bool) :
    Except Fail Unit := do
  failIf (¬ fdOutputStructValid out.header sizeofFdReplayStatus)
    (fdDiagSet fdErrInvalidSize fdFieldStructSize 0 "invalid replay status output")
  failIf (¬ sameContext)
    (fdDiagSet fdErrInvalidArgument fdFieldNone 0 "replay and world contexts differ")
  failIf (world.tick ≠ replay.expected.1 ∨ world.stateSha256 ≠ replay.expected.2)
    (fdDiagSet fdErrChecksum fdFieldTick (UInt32.ofNat replay.cursor)
      "world does not match replay cursor pre-state")

/-- The number of records a call advances by. -/
def Replay.stride (replay : Replay) (decisions : UInt64) : Nat :=
  min decisions.toNat (replay.records.length - replay.cursor)

/-- The commit: the clock and the digest, the cursor and the status. -/
def commitAdvance (replay : Replay) (world : World) (count : Nat) (tick : UInt64)
    (stateSha256 : Digest) : Advanced :=
  let world := { world with tick := tick, stateSha256 := stateSha256 }
  let replay := { replay with cursor := replay.cursor + count }
  { replay := replay
    world := world
    out := {
      structSize := sizeofFdReplayStatus
      abiVersion := fdAbiVersion
      cursor := replay.cursor
      totalDecisions := replay.records.length
      decisionsAdvanced := count
      complete := if replay.cursor = replay.records.length then 1 else 0
      reserved := 0
      stateSha256 := stateSha256 }
    result := .ok () }

def fdReplayAdvance (context : FdContext) (replay : Replay) (world : World) (decisions : UInt64)
    (out : ReplayStatus) (sameContext : Bool) : StateM Ledger Advanced := do
  match advanceChecks replay world out sameContext with
  | .error failure => return ⟨replay, world, out, .error failure⟩
  | .ok () =>
    let count := replay.stride decisions
    if count = 0 then return commitAdvance replay world 0 world.tick world.stateSha256
    else
      match ← fdWorldCloneViaSave context world with
      | .error failure => return ⟨replay, world, out, .error failure⟩
      | .ok candidate =>
        let entries := (replay.records.zipIdx.drop replay.cursor).take count
        let played := forEach entries playRecord candidate
        fdWorldDestroy candidate
        match played with
        | .error failure => return ⟨replay, world, out, .error failure⟩
        | .ok candidate =>
            return commitAdvance replay world count candidate.tick candidate.stateSha256

end FrontierDirectorate
