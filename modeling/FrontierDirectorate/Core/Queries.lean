import Mathlib
import FrontierDirectorate.Core.Session

/-!
# Queries

The read-only calls on snapshots and replays, of `fd_core.c` and `fd_replay.c`.
`out` is the header of the caller's view structure.
-/
namespace FrontierDirectorate
open Checks

/-- The check every query makes on its output structure. -/
def requireOutput (out : StructHeader) (structSize : UInt32) (message : String) : Except Fail Unit :=
  failIf (¬ fdOutputStructValid out structSize) (fdDiagSet fdErrInvalidSize fdFieldStructSize 0 message)

/-- A structure as its initializer leaves it. -/
def initializeOutput (structSize : UInt32) : StructHeader := ⟨structSize, fdAbiVersion⟩

theorem requireOutput_initialized (structSize : UInt32) (message : String) :
    requireOutput (initializeOutput structSize) structSize message = .ok () :=
  failIf_false (by simp [fdOutputStructValid, initializeOutput])

section snapshot

def fdSnapshotGetInfo (snapshot : Snapshot) (out : StructHeader) : Except Fail WorldInfo := do
  requireOutput out sizeofFdWorldInfo "invalid snapshot info output"
  .ok snapshot.info

def fdSnapshotGetTile (snapshot : Snapshot) (x y : UInt32) (out : StructHeader) :
    Except Fail TileView := do
  requireOutput out sizeofFdTileView "invalid tile view output"
  failIf (snapshot.info.width ≤ x ∨ snapshot.info.height ≤ y)
    (fdDiagSet fdErrOutOfRange fdFieldCoordinate y "tile coordinate is outside the snapshot")
  let index := (y * snapshot.info.width + x).toNat
  let tile := snapshot.tiles.getD index Tile.zero
  .ok {
    tileId := fdTileIdFromIndex index
    x := x
    y := y
    terrain := tile.terrain
    overlays := tile.overlays
    elevationCm := tile.elevationCm
    rainfallMm := tile.rainfallMm
    regionId := snapshot.region.id
    settlementId := tile.settlementId
    polityOwnerId :=
      if tile.terrain = fdTerrainWater then 0 else snapshot.region.politicalOwnerId }

def fdSnapshotGetEntityByIndex (snapshot : Snapshot) (index : UInt32) (out : StructHeader) :
    Except Fail EntityView := do
  requireOutput out sizeofFdEntityView "invalid entity view output"
  if h : index.toNat < 6 then .ok (fdFillEntityView (snapshot.entities.get ⟨index.toNat, h⟩))
  else .error (fdDiagSet fdErrOutOfRange fdFieldEntityId index
    "entity index is outside the snapshot")

def fdSnapshotGetRegion (snapshot : Snapshot) (out : StructHeader) : Except Fail RegionView := do
  requireOutput out sizeofFdRegionView "invalid region view output"
  .ok (fdFillRegionView snapshot.region)

end snapshot

section replay

abbrev sizeofFdReplayInfo : UInt32 := 72
abbrev sizeofFdReplayRecordView : UInt32 := 272
abbrev sizeofFdReplayAuditView : UInt32 := 336

structure ReplayInfo where
  decisionCount : UInt64
  cursor : UInt64
  tickZeroSaveBytes : UInt64
  checkpointCount : UInt32
  auditCount : UInt32
  tickZeroStateSha256 : Digest
deriving DecidableEq

structure ReplayRecordView where
  decisionIndex : UInt64
  tickBefore : UInt64
  tickAfter : UInt64
  decision : JointDecision
  rngDomainCount : UInt32
  reserved : UInt32
  preStateSha256 : Digest
  postStateSha256 : Digest
  eventSha256 : Digest
deriving DecidableEq

/-- `message` is the whole array of the view. -/
structure ReplayAuditView where
  attemptIndex : UInt64
  tick : UInt64
  decision : JointDecision
  result : FdResult
  fieldId : UInt32
  itemIndex : UInt32
  messageLength : UInt32
  message : List UInt8
deriving DecidableEq

def fdReplayGetInfo (replay : Replay) (out : StructHeader) : Except Fail ReplayInfo := do
  requireOutput out sizeofFdReplayInfo "invalid replay info output"
  .ok {
    decisionCount := UInt64.ofNat replay.records.length
    cursor := UInt64.ofNat replay.cursor
    tickZeroSaveBytes := UInt64.ofNat replay.tickZeroSave.length
    checkpointCount := UInt32.ofNat replay.checkpointCount
    auditCount := UInt32.ofNat replay.audits.length
    tickZeroStateSha256 := replay.tickZeroHash }

def recordView (index : UInt64) (record : ReplayRecord) : ReplayRecordView where
  decisionIndex := index
  tickBefore := record.tickBefore
  tickAfter := record.tickAfter
  decision := record.decision
  rngDomainCount := record.rngDomainCount
  reserved := 0
  preStateSha256 := record.preHash
  postStateSha256 := record.postHash
  eventSha256 := record.eventHash

def fdReplayGetRecord (replay : Replay) (index : UInt64) (out : StructHeader) :
    Except Fail ReplayRecordView := do
  requireOutput out sizeofFdReplayRecordView "invalid replay record output"
  match replay.records[index.toNat]? with
  | some record => .ok (recordView index record)
  | none => .error (fdDiagSet fdErrOutOfRange fdFieldAction index.toUInt32
      "replay record index is out of range")

def auditView (audit : ReplayAudit) : ReplayAuditView where
  attemptIndex := audit.attemptIndex
  tick := audit.tick
  decision := audit.decision
  result := audit.result
  fieldId := audit.fieldId
  itemIndex := audit.itemIndex
  messageLength := UInt32.ofNat audit.message.length
  message := audit.message ++ List.replicate (fdDiagMessageBytes - audit.message.length) 0

def fdReplayGetAudit (replay : Replay) (index : UInt32) (out : StructHeader) :
    Except Fail ReplayAuditView := do
  requireOutput out sizeofFdReplayAuditView "invalid replay audit output"
  match replay.audits[index.toNat]? with
  | some audit => .ok (auditView audit)
  | none => .error (fdDiagSet fdErrOutOfRange fdFieldAction index
      "replay audit index is out of range")

end replay

end FrontierDirectorate
